import JavaInspect.Proofs.Semantics.Degradation

/-!
# Matchers that subsume others

A matcher asks for an owner, for a name and for parameters. One that asks for less in each of the
three parts matches all that another one matches. Owners are compared by their names, so asking
for less there rests on how the check of a type against a name goes up the supertypes.
-/

namespace JavaInspect

open Relation

/-! ## Asking for less -/

namespace ParameterShape

/-- A type is asked for under the same name, or any known type will do. -/
def Loosens (name looser : String) : Prop :=
  looser = name ∨ looser = anyTypeName

/-- What asks for the same parameters or for less: the types of some places do not matter any more,
nor that the last one takes any number of arguments, nor the parameters at all. -/
inductive Weakens : ParameterShape → ParameterShape → Prop
  | any (shape : ParameterShape) : Weakens shape .any
  | exact {types looser : List String} (loosens : List.Forall₂ Loosens types looser) :
      Weakens (.exact types) (.exact looser)
  | variadic {types looser : List String} (loosens : List.Forall₂ Loosens types looser) :
      Weakens (.variadic types) (.variadic looser)
  | fixed {types looser : List String} (loosens : List.Forall₂ Loosens types looser) :
      Weakens (.variadic types) (.exact looser)

theorem loosens_refl (types : List String) : List.Forall₂ Loosens types types :=
  List.forall₂_same.2 fun _ _ => .inl rfl

theorem Weakens.refl (shape : ParameterShape) : Weakens shape shape := by
  cases shape with
  | any => exact .any .any
  | exact types => exact .exact (loosens_refl types)
  | variadic types => exact .variadic (loosens_refl types)

end ParameterShape

namespace Table

variable {table : Table} {owner type : BindingId} {name upper : String}

/-- No two known types have the same qualified name. -/
def HasDistinctNames (table : Table) : Prop :=
  ∀ left right, table.isKnown left → table.isKnown right →
    (table.entry left).qualifiedName = (table.entry right).qualifiedName → left = right

instance : Decidable table.HasDistinctNames :=
  decidable_of_iff
    (∀ left ∈ table.bindings, table.isKnown left → ∀ right ∈ table.bindings,
      table.isKnown right → (table.entry left).qualifiedName = (table.entry right).qualifiedName →
        left = right) <| by
    simp only [← forall_isKnown_iff]
    constructor
    · intro distinct left right leftKnown rightKnown
      exact distinct left leftKnown right rightKnown
    · intro distinct left leftKnown right rightKnown
      exact distinct left right leftKnown rightKnown

/-- Below the name of a type is below each name that the type is below. -/
theorem SubtypeOfName.trans (distinct : table.HasDistinctNames) (bare : table.HasBareRoot)
    (known : table.isKnown type) (isName : (table.entry type).qualifiedName = name)
    (below : table.SubtypeOfName owner name) (above : table.SubtypeOfName type upper) :
    table.SubtypeOfName owner upper := by
  rcases below with ⟨reference, isRootName⟩ | ⟨other, isOther, ownerKnown, otherKnown, isSubtype⟩
  · -- The type is the root, which is below no name but its own.
    have isRoot : table.isRoot type := beq_iff_eq.2 (isName.trans isRootName)
    left
    refine ⟨reference, ?_⟩
    rcases above with ⟨-, isUpperRoot⟩ | ⟨last, isLast, -, -, rfl | ⟨-, lastIsRoot | path⟩⟩
    · exact isUpperRoot
    · rw [← isLast, isName, isRootName]
    · rw [← isLast]
      exact beq_iff_eq.1 lastIsRoot
    · exact absurd path (not_above_of_isRoot bare known isRoot)
  · obtain rfl := distinct other type otherKnown known (isOther.trans isName.symm)
    rcases above with ⟨reference, isUpperRoot⟩ | ⟨last, isLast, -, lastKnown, isAbove⟩
    · left
      refine ⟨?_, isUpperRoot⟩
      rcases isSubtype with rfl | ⟨ownerReference, -⟩
      · exact reference
      · exact ownerReference
    · exact .inr ⟨last, isLast, ownerKnown, lastKnown, isSubtype.trans bare otherKnown isAbove⟩

end Table

/-- A yes to a question that is asked after a history of requests. -/
def Query.Affirmed (table : Table) (history : List Request) (query : Query Bool) : Prop :=
  (query (Request.cacheAfter table history)).1 = true

instance {table : Table} {history : List Request} {query : Query Bool} :
    Decidable (query.Affirmed table history) :=
  inferInstanceAs (Decidable (_ = _))

namespace MethodMatcher

open Query

/-! ## The parts of a matcher -/

section Parts

variable {table : Table} {narrow wide : MethodMatcher} {owner binding : BindingId}
  {names looser : List String} {types : List (Option BindingId)}

theorem acceptsTypes_cons {name : String} {type : Option BindingId} :
    acceptsTypes table (name :: names) (type :: types) =
      ((if name = anyTypeName then type.isSome else table.isNamed type name) &&
        acceptsTypes table names types) := by
  simp [acceptsTypes, Bool.and_left_comm]

theorem acceptsTypes_of_loosens (loosens : List.Forall₂ ParameterShape.Loosens names looser)
    (accepted : acceptsTypes table names types) : acceptsTypes table looser types := by
  induction loosens generalizing types with
  | nil => exact accepted
  | cons head _ ih =>
      cases types with
      | nil => cases accepted
      | cons type types =>
          rw [acceptsTypes_cons, Bool.and_eq_true] at accepted ⊢
          refine ⟨?_, ih accepted.2⟩
          rcases head with rfl | rfl
          · exact accepted.1
          · rw [if_pos rfl]
            have isAccepted := accepted.1
            split at isAccepted
            case isTrue => exact isAccepted
            case isFalse =>
              obtain ⟨binding, rfl, -⟩ := (Option.any_eq_true ..).1 isAccepted
              rfl

theorem acceptsParameters_of_weakens (weakens : narrow.parameters.Weakens wide.parameters)
    (accepted : narrow.acceptsParameters table binding) : wide.acceptsParameters table binding := by
  rw [acceptsParameters] at accepted ⊢
  generalize narrow.parameters = asked at weakens accepted
  generalize wide.parameters = asksLess at weakens ⊢
  cases weakens with
  | any => rfl
  | exact loosens => exact acceptsTypes_of_loosens loosens accepted
  | variadic loosens =>
      rw [Bool.and_eq_true] at accepted ⊢
      exact accepted.imp_right (acceptsTypes_of_loosens loosens)
  | fixed loosens =>
      rw [Bool.and_eq_true] at accepted
      exact acceptsTypes_of_loosens loosens accepted.2

section Owners

variable {matcher : MethodMatcher} (linked : table.WellLinked) (acyclic : Acyclic table.Above)
  (known : table.isKnown owner)

include linked acyclic known

/-- However owners are compared, the one of a match is below a name that was asked for. -/
theorem below_of_acceptsOwner (accepted : matcher.acceptsOwner table (some owner))
    (asks : matcher.owners ≠ []) : ∃ name ∈ matcher.owners, table.SubtypeOfName owner name := by
  have asksOwner : matcher.owners.isEmpty = false := List.isEmpty_eq_false_iff.2 asks
  rw [acceptsOwner, asksOwner, Bool.false_or] at accepted
  cases isMatch : matcher.ownerMatch with
  | strict =>
      rw [isMatch] at accepted
      obtain ⟨name, member, isNamed⟩ := List.any_eq_true.1 accepted
      rw [Table.isNamed, Option.any_some, beq_iff_eq] at isNamed
      exact ⟨name, member, .inr ⟨owner, isNamed, known, known, .inl rfl⟩⟩
  | inherited =>
      rw [isMatch] at accepted
      obtain ⟨name, member, below⟩ := List.any_eq_true.1 accepted
      rw [← Table.known?_of_isKnown known, Table.isBelowName_iff linked
        (Request.grounded_of_acyclic_above acyclic owner)] at below
      exact ⟨name, member, below⟩

theorem acceptsOwner_of_below (inherited : matcher.ownerMatch = .inherited)
    (below : ∃ name ∈ matcher.owners, table.SubtypeOfName owner name) :
    matcher.acceptsOwner table (some owner) := by
  obtain ⟨name, member, below⟩ := below
  rw [acceptsOwner, inherited, Bool.or_eq_true, List.any_eq_true]
  refine .inr ⟨name, member, ?_⟩
  rw [← Table.known?_of_isKnown known, Table.isBelowName_iff linked
    (Request.grounded_of_acyclic_above acyclic owner)]
  exact below

end Owners

/-- Each part of the second matcher accepts what the one of the first matcher accepts. -/
structure Widens (table : Table) (narrow wide : MethodMatcher) : Prop where
  owner : ∀ type, table.isKnown type →
    narrow.acceptsOwner table (some type) → wide.acceptsOwner table (some type)
  name : ∀ method, (table.entry method).kind = .method →
    narrow.acceptsName table method → wide.acceptsName table method
  parameters : narrow.parameters.Weakens wide.parameters

theorem Widens.describes (widens : Widens table narrow wide)
    (described : narrow.describes table binding) : wide.describes table binding := by
  rw [MethodMatcher.describes] at described ⊢
  simp only [Bool.and_eq_true, Option.any_eq_true, beq_iff_eq] at described ⊢
  obtain ⟨isResolved, owner, isOwner, isDescribed⟩ := described
  obtain ⟨⟨⟨isType, ownerAccepted⟩, nameAccepted⟩, parametersAccepted⟩ := isDescribed
  exact ⟨isResolved, owner, isOwner,
    ⟨⟨isType, widens.owner owner isType.2 ownerAccepted⟩,
      widens.name binding isResolved.1 nameAccepted⟩,
    acceptsParameters_of_weakens widens.parameters parametersAccepted⟩

end Parts

/-! ## Subsumption -/

/-- Whatever the first matcher matches after one history of requests, the second one matches
after another one: methods, calls, declarations, and nodes of either sort. -/
structure Subsumes (table : Table) (history other : List Request)
    (narrow wide : MethodMatcher) : Prop where
  symbol : ∀ method, (narrow.matchesBinding table (some method)).Affirmed table history →
    (wide.matchesBinding table (some method)).Affirmed table other
  invocation : ∀ tree node, (narrow.matchesInvocation table tree node).Affirmed table history →
    (wide.matchesInvocation table tree node).Affirmed table other
  declaration : ∀ tree node, (narrow.matchesDeclaration table tree node).Affirmed table history →
    (wide.matchesDeclaration table tree node).Affirmed table other
  node : ∀ tree node, (narrow.matchesNode table tree node).Affirmed table history →
    (wide.matchesNode table tree node).Affirmed table other

section Subsumption

variable {table : Table} {history other : List Request} {narrow wide : MethodMatcher}

/-- Nodes are matched through the methods that they are bound to. -/
theorem subsumes_of_symbol
    (symbol : ∀ method, (narrow.matchesBinding table (some method)).Affirmed table history →
      (wide.matchesBinding table (some method)).Affirmed table other) :
    Subsumes table history other narrow wide := by
  have binding : ∀ method, (narrow.matchesBinding table method).Affirmed table history →
      (wide.matchesBinding table method).Affirmed table other := by
    intro method matched
    cases method with
    | none => cases matched
    | some method => exact symbol method matched
  have invocation : ∀ tree node,
      (narrow.matchesInvocation table tree node).Affirmed table history →
        (wide.matchesInvocation table tree node).Affirmed table other := by
    intro tree node matched
    rw [matchesInvocation] at matched ⊢
    cases isCall : isInvocation (tree.kind node) with
    | true =>
        rw [isCall] at matched
        exact binding (tree.binding node) matched
    | false =>
        rw [isCall] at matched
        cases matched
  have declaration : ∀ tree node,
      (narrow.matchesDeclaration table tree node).Affirmed table history →
        (wide.matchesDeclaration table tree node).Affirmed table other := by
    intro tree node matched
    rw [matchesDeclaration] at matched ⊢
    cases isDeclaration : (tree.kind node).isMethodLike with
    | true =>
        rw [isDeclaration] at matched
        exact binding (tree.binding node) matched
    | false =>
        rw [isDeclaration] at matched
        cases matched
  refine ⟨symbol, invocation, declaration, ?_⟩
  intro tree node matched
  rw [matchesNode] at matched ⊢
  cases isDeclaration : (tree.kind node).isMethodLike with
  | true =>
      rw [isDeclaration] at matched
      exact declaration tree node matched
  | false =>
      rw [isDeclaration] at matched
      exact invocation tree node matched

variable (linked : table.WellLinked) (acyclic : Acyclic table.Above)

include linked acyclic

theorem affirmed_matchesBinding_iff {matcher : MethodMatcher} {method : BindingId} :
    (matcher.matchesBinding table (some method)).Affirmed table history ↔
      matcher.describes table method := by
  have granted : Request.Granted table history (.matchesBinding matcher (some method)) ↔
      matcher.describes table method := Request.granted_matchesBinding_iff linked acyclic
  rw [← granted]
  exact (iff_of_eq (Answer.decision.injEq ..)).symm

/-- Matchers that ask for less in each part subsume. The owners asked for less are those below
which everything is that is below the owners of the other matcher. -/
theorem subsumes_of_owners (inherited : wide.ownerMatch = .inherited)
    (none : narrow.owners = [] → wide.owners = [])
    (owners : ∀ name ∈ narrow.owners, ∀ owner, table.SubtypeOfName owner name →
      ∃ upper ∈ wide.owners, table.SubtypeOfName owner upper)
    (names : ∀ method, (table.entry method).kind = .method →
      narrow.acceptsName table method → wide.acceptsName table method)
    (weakens : narrow.parameters.Weakens wide.parameters) (history other : List Request) :
    Subsumes table history other narrow wide := by
  have widens : Widens table narrow wide := by
    refine ⟨?_, names, weakens⟩
    intro owner known accepted
    by_cases asks : narrow.owners = []
    · rw [acceptsOwner, none asks]
      rfl
    · obtain ⟨name, member, below⟩ := below_of_acceptsOwner linked acyclic known accepted asks
      exact acceptsOwner_of_below linked acyclic known inherited (owners name member owner below)
  apply subsumes_of_symbol
  intro method matched
  rw [affirmed_matchesBinding_iff linked acyclic] at matched ⊢
  exact widens.describes matched

end Subsumption

/-- Subsumption of matchers, where supertypes do not run in a circle, known types have distinct
names and nothing is above the root. A matcher that compares owners by inheritance matches all
that another one matches, whatever was asked before each of them, if each owner of the other one
is a type below one of its own, its name part accepts all that the other one accepts, and it asks
for the same parameters or for less. In particular it may compare by inheritance instead of
strictly, and ask for a supertype in place of an owner. -/
theorem subsumes_of_less {table : Table} (built : table.Built) (acyclic : Acyclic table.Above)
    (distinct : table.HasDistinctNames) (bare : table.HasBareRoot) :
    (∀ narrow wide : MethodMatcher, narrow.owners ≠ [] → wide.ownerMatch = .inherited →
      (∀ name ∈ narrow.owners, ∃ type, table.isKnown type ∧
        (table.entry type).qualifiedName = name ∧
          ∃ upper ∈ wide.owners, Request.Granted table [] (.isSubtypeOf type upper)) →
      (∀ method, (table.entry method).kind = .method →
        narrow.acceptsName table method → wide.acceptsName table method) →
      narrow.parameters.Weakens wide.parameters →
      ∀ history other, Subsumes table history other narrow wide) ∧
    (∀ (matcher : MethodMatcher) (history other : List Request),
      Subsumes table history other { matcher with ownerMatch := .strict }
        { matcher with ownerMatch := .inherited }) ∧
    ∀ (matcher : MethodMatcher) (before after : List String) (name upper : String),
      matcher.owners = before ++ name :: after →
      (∃ type, table.isKnown type ∧ (table.entry type).qualifiedName = name ∧
        Request.Granted table [] (.isSubtypeOf type upper)) →
      ∀ history other, Subsumes table history other matcher
        { matcher with owners := before ++ upper :: after, ownerMatch := .inherited } := by
  have linked := built.wellLinked
  simp only [Request.granted_isSubtypeOf_iff linked acyclic]
  refine ⟨?less, ?inherited, ?replaced⟩
  case less =>
    intro narrow wide asks inherited lifts names weakens
    refine subsumes_of_owners linked acyclic inherited (absurd · asks) ?_ names weakens
    intro name member owner below
    obtain ⟨type, known, isName, upper, upperMember, above⟩ := lifts name member
    exact ⟨upper, upperMember, below.trans distinct bare known isName above⟩
  case inherited =>
    intro matcher
    exact subsumes_of_owners linked acyclic rfl id
      (fun name member _ below => ⟨name, member, below⟩) (fun _ _ => id) (.refl _)
  case replaced =>
    rintro matcher before after name upper isOwners ⟨type, known, isName, above⟩
    refine subsumes_of_owners linked acyclic rfl ?_ ?_ (fun _ _ => id) (.refl _)
    · intro none
      rw [isOwners] at none
      exact absurd none (List.append_ne_nil_of_right_ne_nil _ (List.cons_ne_nil _ _))
    · intro asked member owner below
      rw [isOwners, List.mem_append, List.mem_cons] at member
      simp only [List.mem_append, List.mem_cons]
      rcases member with inBefore | rfl | inAfter
      · exact ⟨asked, .inl inBefore, below⟩
      · exact ⟨upper, .inr (.inl rfl), below.trans distinct bare known isName above⟩
      · exact ⟨asked, .inr (.inr inAfter), below⟩

/-- A pipe is a source. A call to its flush is one to some method of a source, with an argument
of some type. -/
theorem subsumes_of_less_flush :
    let narrow : MethodMatcher :=
      { owners := ["Pipe"], name := .oneOf ["flush"], parameters := .exact ["Socket[]"] }
    let wide : MethodMatcher :=
      { owners := ["Sink", "Source"], ownerMatch := .inherited,
        name := .oneOf ["close", "flush"], parameters := .exact ["*"] }
    (narrow.matchesBinding Table.channels (some ⟨11⟩)).Affirmed Table.channels [] ∧
      Subsumes Table.channels [] [.superTypes ⟨6⟩] narrow wide ∧
      Subsumes Table.channels [] [] narrow { narrow with ownerMatch := .inherited } ∧
      Subsumes Table.channels [] [] narrow
        { narrow with owners := ["Channel"], ownerMatch := .inherited } := by
  intro narrow wide
  have built : Table.channels.Built := Table.built_iff.2 ⟨Table.channelCalls, rfl⟩
  obtain ⟨less, inherited, replaced⟩ := subsumes_of_less built Table.acyclic_above_channels
    (by decide +kernel) (by decide +kernel)
  refine ⟨by decide +kernel, less narrow wide (by decide) rfl ?_ ?_ ?_ _ _,
    inherited narrow [] [], replaced narrow [] [] "Pipe" "Channel" rfl ?_ [] []⟩
  · intro name member
    obtain rfl := List.mem_singleton.1 member
    exact ⟨⟨5⟩, by decide +kernel, by decide +kernel, "Source", by decide, by decide +kernel⟩
  · intro method _ accepted
    simp only [acceptsName, narrow, wide, Bool.and_eq_true, List.contains_iff_mem,
      List.mem_singleton] at accepted ⊢
    exact ⟨accepted.1, List.mem_cons_of_mem _ (List.mem_singleton.2 accepted.2)⟩
  · exact .exact (.cons (.inr rfl) .nil)
  · exact ⟨⟨5⟩, by decide +kernel, by decide +kernel, by decide +kernel⟩

end MethodMatcher

end JavaInspect
