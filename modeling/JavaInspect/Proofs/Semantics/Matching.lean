import JavaInspect.Matcher
import JavaInspect.Proofs.Semantics.Declarations
import JavaInspect.Proofs.Semantics.Subtyping

/-!
# What matchers mean

A matcher is a predicate on methods that the table alone determines. Asking a matcher
through facades answers with that predicate, where no cycle is above the declaring type.
-/

namespace JavaInspect

open Cache

namespace MethodMatcher

section Meaning

variable (table : Table) (matcher : MethodMatcher)

/-- Whether the declaring type is among those asked for. -/
def acceptsOwner (type : Option BindingId) : Bool :=
  matcher.owners.isEmpty ||
    match matcher.ownerMatch with
    | .strict => matcher.owners.any (table.isNamed type)
    | .inherited => matcher.owners.any (table.isBelowName type)

/-- Whether a binding is a constructor. -/
def isConstructor (binding : BindingId) : Bool :=
  (table.entry binding).kind == .method && (table.entry binding).isConstructor

/-- Whether the name is the one asked for. -/
def acceptsName (binding : BindingId) : Bool :=
  match matcher.name with
  | .constructor => isConstructor table binding
  | .any => !isConstructor table binding
  | .oneOf names => !isConstructor table binding && names.contains (table.entry binding).name

/-- Whether types have the given names one by one. -/
def acceptsTypes (names : List String) (types : List (Option BindingId)) : Bool :=
  names.length == types.length &&
    (names.zip types).all fun (name, type) =>
      if name = anyTypeName then type.isSome else table.isNamed type name

/-- Whether the parameters are those asked for. -/
def acceptsParameters (binding : BindingId) : Bool :=
  match matcher.parameters with
  | .any => true
  | .exact names => acceptsTypes table names (table.parameterTypesOf binding)
  | .variadic names =>
      ((table.entry binding).kind == .method && (table.entry binding).varargs) &&
        acceptsTypes table names (table.parameterTypesOf binding)

/-- Whether a method of a known type has the owner, the name and the parameters asked
for. -/
def describes (binding : BindingId) : Bool :=
  (table.entry binding).kind == .method && !(table.entry binding).recovered &&
    (table.entry binding).owner.any fun owner =>
      (table.entry owner).kind == .type && table.isKnown owner &&
        matcher.acceptsOwner table (some owner) && matcher.acceptsName table binding &&
        matcher.acceptsParameters table binding

/-- Whether a node declares or calls a method that the matcher describes. -/
def describesNode (tree : Tree) (node : NodeId) : Bool :=
  ((tree.kind node).isMethodLike || isInvocation (tree.kind node)) &&
    (tree.binding node).any (matcher.describes table)

end Meaning

variable {table : Table} {blame : SemanticFault → Prop} {matcher : MethodMatcher}
  {before : Cache} {binding : BindingId} {symbol : SymbolId} {type : TypeId}
  {shown : Option BindingId}

open Query

theorem yields_matchesOwner (arraysEnd : table.ArraysEnd) (valid : before.Valid table)
    (idle : Idle before) (isShown : before.ShowsType type shown) :
    Yields table (table.CycleAboveType shown) (matcher.matchesOwner table type) before
      fun answer _ => table.IsGroundedType shown → answer = matcher.acceptsOwner table shown := by
  rw [matchesOwner, acceptsOwner]
  cases matcher.owners.isEmpty with
  | true => exact .pure valid fun _ => rfl
  | false =>
      simp only [Bool.false_eq_true, if_false, Bool.false_or]
      cases matcher.ownerMatch with
      | strict =>
          apply Yields.get
          apply Yields.pure valid
          intro _
          congr 1
          funext name
          exact isNamed_eq valid isShown name
      | inherited =>
          apply Yields.anyM valid
          intro name _ middle leads
          exact yields_isSubtypeOf arraysEnd leads.valid (idle.later leads.toGrows)
            (leads.toKeeps.showsType isShown)

theorem yields_matchesName (valid : before.Valid table)
    (isShown : before.ShowsSymbol symbol binding) :
    Yields table blame (matcher.matchesName table symbol) before fun answer _ =>
      answer = matcher.acceptsName table binding := by
  rw [matchesName, acceptsName]
  apply (yields_isConstructor valid isShown).bind
  intro _ middle leads same
  subst same
  have middleShown := leads.toKeeps.showsSymbol isShown
  cases matcher.name with
  | constructor => exact .pure leads.valid rfl
  | any => exact .pure leads.valid rfl
  | oneOf names =>
      apply Yields.readSymbol
      rw [(leads.valid.describesSymbol middleShown).name]
      exact .pure leads.valid rfl

theorem typesMatch_eq {names : List String} {types : List TypeId}
    {shown : List (Option BindingId)} (valid : before.Valid table)
    (isShown : before.ShowsTypes types shown) :
    typesMatch before names types = acceptsTypes table names shown := by
  rw [typesMatch, acceptsTypes, isShown.length_eq]
  congr 1
  induction isShown generalizing names with
  | nil => cases names <;> rfl
  | cons typeShown _ ih =>
      cases names with
      | nil => rfl
      | cons name names =>
          simp only [List.zip_cons_cons, List.all_cons, ih, isNamed_eq valid typeShown,
            isUnknown_eq valid typeShown, Option.not_isNone]

theorem yields_declaresParameters {names : List String} (arraysEnd : table.ArraysEnd)
    (valid : before.Valid table) (isShown : before.ShowsSymbol symbol binding) :
    Yields table blame (declaresParameters table names symbol) before fun answer _ =>
      answer = acceptsTypes table names (table.parameterTypesOf binding) := by
  rw [declaresParameters]
  apply (yields_parameterTypes arraysEnd valid isShown).bind
  intro types after leads typesShown
  apply Yields.get
  exact .pure leads.valid (typesMatch_eq leads.valid typesShown)

theorem yields_matchesParameters (arraysEnd : table.ArraysEnd) (valid : before.Valid table)
    (isShown : before.ShowsSymbol symbol binding) :
    Yields table blame (matcher.matchesParameters table symbol) before fun answer _ =>
      answer = matcher.acceptsParameters table binding := by
  rw [matchesParameters, acceptsParameters]
  cases matcher.parameters with
  | any => exact .pure valid rfl
  | exact names => exact yields_declaresParameters arraysEnd valid isShown
  | variadic names =>
      apply (yields_isVarargs valid isShown).bind
      intro _ middle leads same
      subst same
      have middleShown := leads.toKeeps.showsSymbol isShown
      cases (table.entry binding).kind == .method && (table.entry binding).varargs with
      | false => exact .pure leads.valid rfl
      | true => exact yields_declaresParameters arraysEnd leads.valid middleShown

/-- What is asked once the declaring type is known. -/
theorem yields_matchesMember {owner : BindingId} (arraysEnd : table.ArraysEnd)
    (valid : before.Valid table) (idle : Idle before)
    (isShown : before.ShowsSymbol symbol binding)
    (typeShown : before.ShowsType type (some owner)) :
    Yields table (table.CycleAboveType (some owner)) (do
        if !(← matcher.matchesOwner table type) then return false
        if !(← matcher.matchesName table symbol) then return false
        matcher.matchesParameters table symbol) before fun answer _ =>
      table.IsGroundedType (some owner) → answer = (matcher.acceptsOwner table (some owner) &&
        matcher.acceptsName table binding && matcher.acceptsParameters table binding) := by
  apply (yields_matchesOwner arraysEnd valid idle typeShown).bind
  intro ownerAnswer middle leads ownerMatches
  cases ownerAnswer with
  | false =>
      apply Yields.pure leads.valid
      intro grounded
      rw [← ownerMatches grounded]
      rfl
  | true =>
      have middleShown := leads.toKeeps.showsSymbol isShown
      apply (yields_matchesName leads.valid middleShown).bind
      intro nameAnswer later leadsOn nameMatches
      cases nameAnswer with
      | false =>
          apply Yields.pure leadsOn.valid
          intro _
          rw [← nameMatches, Bool.and_false, Bool.false_and]
      | true =>
          have laterShown := leadsOn.toKeeps.showsSymbol middleShown
          apply (yields_matchesParameters arraysEnd leadsOn.valid laterShown).imp
          intro answer after _ parametersMatch grounded
          rw [← ownerMatches grounded, ← nameMatches, parametersMatch, Bool.and_self, Bool.true_and]

theorem yields_matchesSymbol (arraysEnd : table.ArraysEnd) (valid : before.Valid table)
    (idle : Idle before) (isShown : before.ShowsSymbol symbol binding) :
    Yields table (table.CycleAboveType (table.entry binding).owner)
      (matcher.matchesSymbol table symbol) before fun answer _ =>
        table.IsGroundedType (table.entry binding).owner →
          answer = matcher.describes table binding := by
  have describesSymbol := valid.describesSymbol isShown
  rw [matchesSymbol, describes]
  apply Yields.readSymbol
  rw [describesSymbol.kind, describesSymbol.recovered]
  have excluded : ((table.entry binding).kind != .method || (table.entry binding).recovered) =
      !((table.entry binding).kind == .method && !(table.entry binding).recovered) := by
    rw [bne, Bool.not_and, Bool.not_not]
  rw [excluded]
  cases (table.entry binding).kind == .method && !(table.entry binding).recovered with
  | false => exact .pure valid fun _ => rfl
  | true =>
      apply (yields_owner valid isShown).bind
      intro answer middle leads ownerShown
      cases isOwner : (table.entry binding).owner with
      | none =>
          rw [isOwner] at ownerShown
          cases ownerShown
          exact .pure leads.valid fun _ => rfl
      | some owner =>
          rw [isOwner] at ownerShown
          cases ownerShown with
          | some ownerShown =>
              have ownerKind := (leads.valid.describesSymbol ownerShown).kind
              apply Yields.readSymbol
              rw [ownerKind, ownerShown.2, Option.any_some, bne]
              cases (table.entry owner).kind == .type with
              | false => exact .pure leads.valid fun _ => rfl
              | true =>
                  apply (yields_typeOf arraysEnd leads.valid).bind
                  intro type later leadsOn typeShown
                  rw [isUnknown_eq leadsOn.valid typeShown, Table.known?]
                  cases known : table.isKnown owner with
                  | false => exact .pure leadsOn.valid fun _ => rfl
                  | true =>
                      rw [Table.known?, known] at typeShown
                      have stillShown :=
                        leadsOn.toKeeps.showsSymbol (leads.toKeeps.showsSymbol isShown)
                      have stillIdle := (idle.later leads.toGrows).later leadsOn.toGrows
                      exact yields_matchesMember arraysEnd leadsOn.valid stillIdle stillShown
                        typeShown

theorem yields_matchesBinding {binding : Option BindingId} (arraysEnd : table.ArraysEnd)
    (valid : before.Valid table) (idle : Idle before) :
    Yields table (table.CycleAboveType (binding.bind fun binding => (table.entry binding).owner))
      (matcher.matchesBinding table binding) before fun answer _ =>
        table.IsGroundedType (binding.bind fun binding => (table.entry binding).owner) →
          answer = binding.any (matcher.describes table) := by
  cases binding with
  | none => exact .pure valid fun _ => rfl
  | some binding =>
      rw [matchesBinding]
      apply (yields_symbolOf valid).bind
      intro symbol middle leads isShown
      exact yields_matchesSymbol arraysEnd leads.valid (idle.later leads.toGrows) isShown

/-- The declaration around the method that a node is bound to. -/
def ownerAt (table : Table) (tree : Tree) (node : NodeId) : Option BindingId :=
  (tree.binding node).bind fun binding => (table.entry binding).owner

theorem yields_matchesNode {tree : Tree} {node : NodeId} (arraysEnd : table.ArraysEnd)
    (valid : before.Valid table) (idle : Idle before) :
    Yields table (table.CycleAboveType (ownerAt table tree node))
      (matcher.matchesNode table tree node) before fun answer _ =>
        table.IsGroundedType (ownerAt table tree node) →
          answer = matcher.describesNode table tree node := by
  rw [matchesNode, matchesDeclaration, matchesInvocation, describesNode]
  cases (tree.kind node).isMethodLike with
  | true => exact yields_matchesBinding arraysEnd valid idle
  | false =>
      cases isInvocation (tree.kind node) with
      | true => exact yields_matchesBinding arraysEnd valid idle
      | false => exact .pure valid fun _ => rfl

end MethodMatcher

namespace MatcherSet

variable {table : Table} {set : MatcherSet} {before : Cache}

open Query

theorem yields_matchesNode {tree : Tree} {node : NodeId} (arraysEnd : table.ArraysEnd)
    (valid : before.Valid table) (idle : Idle before) :
    Yields table (table.CycleAboveType (MethodMatcher.ownerAt table tree node))
      (set.matchesNode table tree node) before fun answer _ =>
        table.IsGroundedType (MethodMatcher.ownerAt table tree node) →
          answer = set.matchers.any fun matcher => matcher.describesNode table tree node := by
  rw [matchesNode]
  apply Yields.anyM valid
  intro matcher _ middle leads
  exact MethodMatcher.yields_matchesNode arraysEnd leads.valid (idle.later leads.toGrows)

end MatcherSet

end JavaInspect
