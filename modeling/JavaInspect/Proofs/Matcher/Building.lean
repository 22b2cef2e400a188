import JavaInspect.Proofs.Matcher.Subsumption
import JavaInspect.Proofs.Semantics.SuperTypes

/-!
# Building matchers

A matcher is built call by call; a later call settles its part anew. What the owners and the
names that were passed mean for the methods that match is said here for every sequence of calls
and every table. Where supertypes run in a circle, the answer to a subtype check depends on what
was asked before, but not on earlier checks of the same type, so that owners can still be taken one
by one.

An empty list of owners stands for no list at all. So owners restrict the matches, and more
owners make for more matches, only where the list is not empty.
-/

namespace JavaInspect

open Relation Cache

/-! ## The declaring type -/

/-- The known type that declares a resolved method. -/
def Table.declaringType? (table : Table) (method : BindingId) : Option BindingId :=
  if (table.entry method).kind == .method && !(table.entry method).recovered then
    (table.entry method).owner.filter fun owner =>
      (table.entry owner).kind == .type && table.isKnown owner
  else none

theorem Table.declaringType?_eq_some_iff {table : Table} {method owner : BindingId} :
    table.declaringType? method = some owner ↔
      ((table.entry method).kind = .method ∧ (table.entry method).recovered = false) ∧
        (table.entry method).owner = some owner ∧
          (table.entry owner).kind = .type ∧ table.isKnown owner := by
  simp [Table.declaringType?, Option.filter_eq_some_iff]

namespace Query

variable {table : Table} {blame : SemanticFault → Prop} {before : Cache} {binding : BindingId}
  {symbol : SymbolId}

/-- The facade of the known type that declares a resolved method. -/
def declaringType (table : Table) (symbol : SymbolId) : Query (Option TypeId) := do
  let facade ← readSymbol symbol
  if facade.kind != .method || facade.recovered then return none
  let some owner ← owner table symbol | return none
  let ownerFacade ← readSymbol owner
  if ownerFacade.kind != .type then return none
  let type ← typeOf table ownerFacade.binding
  if type.isUnknown then return none
  return some type

theorem yields_declaringType (arraysEnd : table.ArraysEnd) (valid : before.Valid table)
    (isShown : before.ShowsSymbol symbol binding) :
    Yields table blame (declaringType table symbol) before fun answer after =>
      Option.Rel after.ShowsType answer ((table.declaringType? binding).map some) := by
  have describesSymbol := valid.describesSymbol isShown
  rw [declaringType, Table.declaringType?]
  apply Yields.readSymbol
  rw [describesSymbol.kind, describesSymbol.recovered]
  have excluded : ((table.entry binding).kind != .method || (table.entry binding).recovered) =
      !((table.entry binding).kind == .method && !(table.entry binding).recovered) := by
    rw [bne, Bool.not_and, Bool.not_not]
  rw [excluded]
  cases (table.entry binding).kind == .method && !(table.entry binding).recovered with
  | false => exact .pure valid .none
  | true =>
      apply (yields_owner valid isShown).bind
      intro answer middle leads ownerShown
      cases isOwner : (table.entry binding).owner with
      | none =>
          rw [isOwner] at ownerShown
          cases ownerShown
          exact .pure leads.valid .none
      | some owner =>
          rw [isOwner] at ownerShown
          cases ownerShown with
          | some ownerShown =>
              apply Yields.readSymbol
              rw [(leads.valid.describesSymbol ownerShown).kind, ownerShown.2, bne,
                Option.filter_some]
              cases (table.entry owner).kind == .type with
              | false => exact .pure leads.valid .none
              | true =>
                  apply (yields_typeOf arraysEnd leads.valid).bind
                  intro type later leadsOn typeShown
                  rw [isUnknown_eq leadsOn.valid typeShown]
                  rw [Table.known?] at typeShown ⊢
                  cases known : table.isKnown owner with
                  | false => exact .pure leadsOn.valid .none
                  | true =>
                      rw [known] at typeShown
                      exact .pure leadsOn.valid (.some typeShown)

/-- Check the type that declares a method against a name. -/
def isDeclaredBelow (table : Table) (method : BindingId) (name : String) : Query Bool := do
  let symbol ← symbolOf table method
  match ← declaringType table symbol with
  | some type => isSubtypeOf table type name
  | none => return false

end Query

namespace MethodMatcher

open Query

section Meaning

variable {table : Table} {history : List Request} {before : Cache} {matcher : MethodMatcher}
  {binding owner method : BindingId} {symbol : SymbolId} {type : TypeId}

/-- What is asked of a method once its declaring type is known. -/
def matchesMember (table : Table) (matcher : MethodMatcher) (symbol : SymbolId) (type : TypeId) :
    Query Bool := do
  if !(← matcher.matchesOwner table type) then return false
  if !(← matcher.matchesName table symbol) then return false
  matcher.matchesParameters table symbol

theorem matchesSymbol_eq (matcher : MethodMatcher) (symbol : SymbolId) :
    matcher.matchesSymbol table symbol = (do
      match ← declaringType table symbol with
      | some type => matcher.matchesMember table symbol type
      | none => return false) := by
  rw [matchesSymbol, declaringType, bind_assoc]
  congr 1
  funext facade
  split
  · rfl
  rw [bind_assoc]
  congr 1
  funext answer
  cases answer with
  | none => rfl
  | some owner =>
      simp only [bind_assoc]
      congr 1
      funext ownerFacade
      split
      · rfl
      simp only [bind_assoc]
      congr 1
      funext type
      split <;> rfl

theorem matchesOwner_iff (arraysEnd : table.ArraysEnd) (valid : before.Valid table)
    (idle : Idle before) (isShown : before.ShowsType type (some owner)) :
    (matcher.matchesOwner table type before).1 = true ↔
      matcher.owners = [] ∨ ∃ name ∈ matcher.owners,
        match matcher.ownerMatch with
        | .strict => (table.entry owner).qualifiedName = name
        | .inherited => (isSubtypeOf table type name before).1 = true := by
  by_cases none : matcher.owners = []
  · rw [matchesOwner, none]
    exact iff_of_true rfl (.inl rfl)
  · rw [matchesOwner, List.isEmpty_eq_false_iff.2 none]
    simp only [Bool.false_eq_true, if_false, none, false_or]
    cases matcher.ownerMatch with
    | strict =>
        change matcher.owners.any (before.isNamed type) = true ↔ _
        rw [List.any_eq_true]
        simp only [isNamed_eq valid isShown, Table.isNamed, Option.any_some, beq_iff_eq]
    | inherited =>
        rw [anyM_isSubtypeOf arraysEnd valid idle isShown]
        exact List.any_eq_true

theorem matchesMember_iff (arraysEnd : table.ArraysEnd) (valid : before.Valid table)
    (idle : Idle before) (isShown : before.ShowsSymbol symbol method)
    (typeShown : before.ShowsType type (some owner)) :
    (matcher.matchesMember table symbol type before).1 = true ↔
      (matcher.matchesOwner table type before).1 = true ∧
        matcher.acceptsName table method ∧ matcher.acceptsParameters table method := by
  have ownerAsked : Yields table (table.CycleAboveType (some owner))
      (matcher.matchesOwner table type) before _ :=
    yields_matchesOwner arraysEnd valid idle typeShown
  have leads := ownerAsked.1
  rw [matchesMember, bind_apply]
  cases (matcher.matchesOwner table type before).1 with
  | false => exact iff_of_false Bool.false_ne_true (by simp)
  | true =>
      have middleShown := leads.toKeeps.showsSymbol isShown
      have nameAsked : Yields table (table.CycleAboveType (some owner))
          (matcher.matchesName table symbol) _ _ := yields_matchesName leads.valid middleShown
      obtain ⟨leadsOn, isName⟩ := nameAsked
      simp only [Bool.not_true, Bool.false_eq_true, if_false, bind_apply, isName, true_and]
      cases matcher.acceptsName table method with
      | false => exact iff_of_false Bool.false_ne_true (by simp)
      | true =>
          have parametersAsked : Yields table (table.CycleAboveType (some owner))
              (matcher.matchesParameters table symbol) _ _ :=
            yields_matchesParameters arraysEnd leadsOn.valid
              (leadsOn.toKeeps.showsSymbol middleShown)
          simp only [Bool.not_true, Bool.false_eq_true, if_false, true_and]
          rw [parametersAsked.2]

theorem declared_cacheAfter (arraysEnd : table.ArraysEnd) (history : List Request)
    (method : BindingId) :
    Yields table table.Explains (symbolOf table method) (Request.cacheAfter table history)
        (fun symbol middle => middle.ShowsSymbol symbol method) ∧
      Yields table table.Explains
        (declaringType table (symbolOf table method (Request.cacheAfter table history)).1)
        (symbolOf table method (Request.cacheAfter table history)).2
        fun answer after =>
          Option.Rel after.ShowsType answer ((table.declaringType? method).map some) := by
  have shown : Yields table table.Explains (symbolOf table method)
      (Request.cacheAfter table history) fun symbol middle => middle.ShowsSymbol symbol method :=
    yields_symbolOf (Request.valid_cacheAfter arraysEnd history)
  exact ⟨shown, yields_declaringType arraysEnd shown.1.valid shown.2⟩

/-- The declaring type is asked for first, whatever is asked of it then. -/
theorem asked_of_declaringType (arraysEnd : table.ArraysEnd) (history : List Request)
    (declared : table.declaringType? method = some owner) :
    ∃ symbol type middle, middle.Valid table ∧ Idle middle ∧ middle.ShowsSymbol symbol method ∧
      middle.ShowsType type (some owner) ∧
      (∀ matcher : MethodMatcher,
        matcher.matchesBinding table (some method) (Request.cacheAfter table history) =
          matcher.matchesMember table symbol type middle) ∧
      ∀ name, isDeclaredBelow table method name (Request.cacheAfter table history) =
        isSubtypeOf table type name middle := by
  obtain ⟨⟨leads, isShown⟩, leadsOn, isDeclared⟩ := declared_cacheAfter arraysEnd history method
  have idle := Request.idle_cacheAfter arraysEnd history
  have stillIdle := (idle.later leads.toGrows).later leadsOn.toGrows
  rw [declared] at isDeclared
  cases answered : (declaringType table _ _).1 with
  | none =>
      rw [answered] at isDeclared
      cases isDeclared
  | some type =>
      rw [answered] at isDeclared
      cases isDeclared with
      | some typeShown =>
          refine ⟨_, type, _, leadsOn.valid, stillIdle, leadsOn.toKeeps.showsSymbol isShown,
            typeShown, ?_, ?_⟩
          · intro matcher
            rw [matchesBinding, bind_apply, matchesSymbol_eq, bind_apply, answered]
          · intro name
            rw [isDeclaredBelow, bind_apply, bind_apply, answered]

/-- Without a known declaring type nothing matches. -/
theorem not_affirmed_of_undeclared (arraysEnd : table.ArraysEnd) (history : List Request)
    (undeclared : table.declaringType? method = none) :
    ¬ (matcher.matchesBinding table (some method)).Affirmed table history := by
  obtain ⟨-, -, isDeclared⟩ := declared_cacheAfter arraysEnd history method
  rw [Affirmed, matchesBinding, bind_apply, matchesSymbol_eq, bind_apply]
  rw [undeclared] at isDeclared
  generalize (declaringType table _ _).1 = answer at isDeclared ⊢
  cases isDeclared
  exact Bool.false_ne_true

/-- How the declaring type is compared with one of the owners. -/
def ComparesOwner (table : Table) (history : List Request) (method owner : BindingId)
    (name : String) : OwnerMatch → Prop
  | .strict => (table.entry owner).qualifiedName = name
  | .inherited => (isDeclaredBelow table method name).Affirmed table history

/-- What a match comes to, whatever was asked before and whether or not supertypes run in a
circle. -/
theorem affirmed_iff_parts (arraysEnd : table.ArraysEnd) (history : List Request) :
    (matcher.matchesBinding table (some method)).Affirmed table history ↔
      ∃ owner, table.declaringType? method = some owner ∧
        (matcher.owners = [] ∨
          ∃ name ∈ matcher.owners, ComparesOwner table history method owner name matcher.ownerMatch) ∧
        matcher.acceptsName table method ∧ matcher.acceptsParameters table method := by
  cases declared : table.declaringType? method with
  | none => exact iff_of_false (not_affirmed_of_undeclared arraysEnd history declared) (by simp)
  | some owner =>
      obtain ⟨symbol, type, middle, valid, idle, isShown, typeShown, asked, checks⟩ :=
        asked_of_declaringType arraysEnd history declared
      simp only [Affirmed, asked, Option.some.injEq, exists_eq_left']
      rw [matchesMember_iff arraysEnd valid idle isShown typeShown,
        matchesOwner_iff arraysEnd valid idle typeShown]
      cases matcher.ownerMatch <;> simp only [ComparesOwner, Affirmed, checks]

/-- Where supertypes do not run in a circle, the check of the declaring type reads the subtype
relation. -/
theorem below_of_isDeclaredBelow (linked : table.WellLinked) (acyclic : Acyclic table.Above)
    (declared : table.declaringType? method = some owner) {name : String}
    (below : (isDeclaredBelow table method name).Affirmed table history) :
    table.SubtypeOfName owner name := by
  obtain ⟨symbol, type, middle, valid, idle, -, typeShown, -, checks⟩ :=
    asked_of_declaringType linked.arraysEnd history declared
  have grounded := Request.grounded_of_acyclic_above acyclic
  have check : Yields table (table.CycleAboveType (some owner)) (isSubtypeOf table type name)
      middle _ := yields_isSubtypeOf linked.arraysEnd valid idle typeShown
  have answered := check.2 fun binding _ => grounded binding
  have known := (Table.declaringType?_eq_some_iff.1 declared).2.2.2
  rw [Affirmed, checks, answered, ← Table.known?_of_isKnown known,
    Table.isBelowName_iff linked (grounded owner)] at below
  exact below

end Meaning

end MethodMatcher

/-! ## Builders -/

/-- A call that settles a part of the matcher that is being built. -/
inductive MatcherCall where
  | ofTypes (types : List String)
  | ofSubtypes (types : List String)
  | named (names : List String)
  | withAnyName
  | asConstructor
  | withAnyParameters
  | withoutParameters
  | withParameters (types : List String)
  | withVarargs (types : List String)
deriving DecidableEq, Repr

/-- Whether a call settles the owners. -/
def MatcherCall.setsOwners : MatcherCall → Bool
  | .ofTypes _ | .ofSubtypes _ => true
  | _ => false

/-- What may be accepted under a further name too. -/
inductive NameMatch.Extends : NameMatch → NameMatch → Prop
  | refl (name : NameMatch) : Extends name name
  | oneOf {names more : List String} (enlarges : names ⊆ more) :
      Extends (.oneOf names) (.oneOf more)

namespace MethodMatcher

open Query

/-- Make a call on what has been built so far. -/
def apply (matcher : MethodMatcher) : MatcherCall → MethodMatcher
  | .ofTypes types => matcher.ofTypes types
  | .ofSubtypes types => matcher.ofSubtypes types
  | .named names => matcher.named names
  | .withAnyName => matcher.withAnyName
  | .asConstructor => matcher.asConstructor
  | .withAnyParameters => matcher.withAnyParameters
  | .withoutParameters => matcher.withoutParameters
  | .withParameters types => matcher.withParameters types
  | .withVarargs types => matcher.withVarargs types

/-- The matcher that a sequence of calls builds. -/
def build (calls : List MatcherCall) : MethodMatcher :=
  calls.foldl apply {}

/-- The second matcher asks for the same, with more owners and more names to choose from. Where
the first one restricts the owners, the second one does so only by some owner. -/
structure Extends (narrow wide : MethodMatcher) : Prop where
  ownerMatch : narrow.ownerMatch = wide.ownerMatch
  owners : narrow.owners ⊆ wide.owners
  unrestricted : narrow.owners = [] → wide.owners = []
  name : narrow.name.Extends wide.name
  parameters : narrow.parameters = wide.parameters

section Building

variable {table : Table} {history : List Request} {narrow wide matcher : MethodMatcher}
  {earlier later calls : List MatcherCall} {types more : List String}

theorem Extends.refl (matcher : MethodMatcher) : Extends matcher matcher where
  ownerMatch := rfl
  owners := List.Subset.refl _
  unrestricted := id
  name := .refl _
  parameters := rfl

/-- One call settles its part alike in both matchers. -/
theorem Extends.apply (isExtended : Extends narrow wide) (call : MatcherCall) :
    Extends (narrow.apply call) (wide.apply call) := by
  cases call with
  | ofTypes types | ofSubtypes types =>
      exact { isExtended with
        ownerMatch := rfl, owners := List.Subset.refl types, unrestricted := id }
  | named names => exact { isExtended with name := .refl (.oneOf names) }
  | withAnyName => exact { isExtended with name := .refl .any }
  | asConstructor => exact { isExtended with name := .refl .constructor }
  | withAnyParameters | withoutParameters | withParameters _ | withVarargs _ =>
      exact { isExtended with parameters := rfl }

theorem Extends.foldl (isExtended : Extends narrow wide) (calls : List MatcherCall) :
    Extends (calls.foldl MethodMatcher.apply narrow) (calls.foldl MethodMatcher.apply wide) := by
  induction calls generalizing narrow wide with
  | nil => exact isExtended
  | cons call calls ih => exact ih (isExtended.apply call)

/-- What one of the calls extends, the matcher that is built in the end extends. -/
theorem extends_build {call other : MatcherCall}
    (isExtended : ∀ matcher : MethodMatcher, Extends (matcher.apply call) (matcher.apply other)) :
    Extends (build (earlier ++ call :: later)) (build (earlier ++ other :: later)) := by
  rw [build, build, List.foldl_append, List.foldl_append]
  exact (isExtended _).foldl later

theorem acceptsName_of_extends {method : BindingId} (isExtended : narrow.name.Extends wide.name)
    (accepted : narrow.acceptsName table method) : wide.acceptsName table method := by
  rw [acceptsName] at accepted ⊢
  generalize narrow.name = name at isExtended accepted
  generalize wide.name = moreNames at isExtended ⊢
  cases isExtended with
  | refl => exact accepted
  | oneOf enlarges =>
      simp only [Bool.and_eq_true, List.contains_iff_mem] at accepted ⊢
      exact accepted.imp_right fun member => enlarges member

/-- More to choose from makes for more matches. -/
theorem Extends.subsumes (arraysEnd : table.ArraysEnd) (isExtended : Extends narrow wide)
    (history : List Request) : Subsumes table history history narrow wide := by
  apply subsumes_of_symbol
  intro method matched
  rw [affirmed_iff_parts arraysEnd] at matched ⊢
  obtain ⟨owner, declared, ownerAccepted, nameAccepted, parametersAccepted⟩ := matched
  refine ⟨owner, declared, ?_, acceptsName_of_extends isExtended.name nameAccepted, ?_⟩
  · rw [isExtended.ownerMatch] at ownerAccepted
    exact ownerAccepted.imp isExtended.unrestricted
      (Exists.imp fun name => And.imp_left fun member => isExtended.owners member)
  · rw [acceptsParameters, isExtended.parameters] at parametersAccepted
    exact parametersAccepted

/-- Calls that do not settle the owners leave them as they are. -/
theorem owners_foldl (unsettled : ∀ call ∈ calls, call.setsOwners = false) :
    (calls.foldl apply matcher).owners = matcher.owners ∧
      (calls.foldl apply matcher).ownerMatch = matcher.ownerMatch := by
  induction calls generalizing matcher with
  | nil => exact ⟨rfl, rfl⟩
  | cons call calls ih =>
      have isUnsettled := unsettled call List.mem_cons_self
      have others : ∀ later ∈ calls, later.setsOwners = false :=
        fun later member => unsettled later (List.mem_cons_of_mem _ member)
      rw [List.foldl_cons, (ih others).1, (ih others).2]
      cases call with
      | ofTypes | ofSubtypes => cases isUnsettled
      | _ => exact ⟨rfl, rfl⟩

/-- The last call that settles the owners decides on them. -/
theorem owners_build {call : MatcherCall} {ownerMatch : OwnerMatch}
    (settles : ∀ matcher : MethodMatcher,
      (matcher.apply call).owners = types ∧ (matcher.apply call).ownerMatch = ownerMatch)
    (unsettled : ∀ call ∈ later, call.setsOwners = false) :
    (build (earlier ++ call :: later)).owners = types ∧
      (build (earlier ++ call :: later)).ownerMatch = ownerMatch := by
  rw [build, List.foldl_append, List.foldl_cons, (owners_foldl unsettled).1,
    (owners_foldl unsettled).2]
  exact settles _

/-- Without the calls that settle the owners, the same matcher is built but for the owners. -/
theorem build_filter (calls : List MatcherCall) :
    build (calls.filter fun call => !call.setsOwners) =
      { build calls with owners := [], ownerMatch := .strict } := by
  have generalized (matcher : MethodMatcher) :
      (calls.filter fun call => !call.setsOwners).foldl apply
          { matcher with owners := [], ownerMatch := .strict } =
        { calls.foldl apply matcher with owners := [], ownerMatch := .strict } := by
    induction calls generalizing matcher with
    | nil => rfl
    | cons call calls ih =>
        rw [List.foldl_cons, ← ih (matcher.apply call)]
        cases call <;> rfl
  exact generalized {}

/-- The declaring type of a match was asked for, if any was. -/
theorem owner_of_affirmed (arraysEnd : table.ArraysEnd) {call : MatcherCall} {method : BindingId}
    {ownerMatch : OwnerMatch}
    (settles : ∀ matcher : MethodMatcher,
      (matcher.apply call).owners = types ∧ (matcher.apply call).ownerMatch = ownerMatch)
    (unsettled : ∀ call ∈ later, call.setsOwners = false) (asks : types ≠ [])
    (matched : ((build (earlier ++ call :: later)).matchesBinding table (some method)).Affirmed
      table history) :
    ∃ owner, table.declaringType? method = some owner ∧
      ∃ name ∈ types, ComparesOwner table history method owner name ownerMatch := by
  rw [affirmed_iff_parts arraysEnd, (owners_build settles unsettled).1,
    (owners_build settles unsettled).2] at matched
  obtain ⟨owner, declared, none | among, -⟩ := matched
  · exact absurd none asks
  · exact ⟨owner, declared, among⟩

/-- A call with no owners asks for what is asked for without it. -/
theorem affirmed_build_of_no_owners (arraysEnd : table.ArraysEnd) {call : MatcherCall}
    {method : BindingId} {ownerMatch : OwnerMatch}
    (settles : ∀ matcher : MethodMatcher,
      (matcher.apply call).owners = [] ∧ (matcher.apply call).ownerMatch = ownerMatch)
    (unsettled : ∀ call ∈ later, call.setsOwners = false) :
    ((build (earlier ++ call :: later)).matchesBinding table (some method)).Affirmed table history ↔
      ((build ((earlier ++ call :: later).filter fun call => !call.setsOwners)).matchesBinding table
        (some method)).Affirmed table history := by
  rw [build_filter, affirmed_iff_parts arraysEnd, affirmed_iff_parts arraysEnd,
    (owners_build settles unsettled).1]
  simp only [true_or, true_and]
  rfl

end Building

/-- What the owners and the names of a builder do, whatever the other calls are and whatever was
asked before. A list of owners that is not empty restricts the matches to methods that one of them
declares, or one below, where no later call settles the owners anew. An empty list of owners is the
same as none. With more owners, if there are any, and with more names, no match is lost. -/
theorem owners_and_names_of_matches {table : Table} (built : table.Built) (history : List Request)
    (earlier later : List MatcherCall) :
    ((∀ call ∈ later, call.setsOwners = false) →
      (∀ types, types ≠ [] → ∀ method,
        (((build (earlier ++ .ofTypes types :: later)).matchesBinding table (some method)).Affirmed
            table history →
          ∃ owner, (table.entry method).owner = some owner ∧ table.isKnown owner ∧
            (table.entry owner).qualifiedName ∈ types) ∧
        (((build (earlier ++ .ofSubtypes types :: later)).matchesBinding table
            (some method)).Affirmed table history →
          ∃ owner, (table.entry method).owner = some owner ∧ table.isKnown owner ∧
            ∃ name ∈ types, (isDeclaredBelow table method name).Affirmed table history ∧
              (Acyclic table.Above → table.SubtypeOfName owner name))) ∧
      ∀ call ∈ [MatcherCall.ofTypes [], MatcherCall.ofSubtypes []], ∀ method,
        ((build (earlier ++ call :: later)).matchesBinding table (some method)).Affirmed
            table history ↔
          ((build ((earlier ++ call :: later).filter fun call => !call.setsOwners)).matchesBinding
            table (some method)).Affirmed table history) ∧
    (∀ types more, types ≠ [] → types ⊆ more →
      Subsumes table history history (build (earlier ++ .ofTypes types :: later))
          (build (earlier ++ .ofTypes more :: later)) ∧
        Subsumes table history history (build (earlier ++ .ofSubtypes types :: later))
          (build (earlier ++ .ofSubtypes more :: later))) ∧
    ∀ names more, names ⊆ more →
      Subsumes table history history (build (earlier ++ .named names :: later))
        (build (earlier ++ .named more :: later)) := by
  have linked := built.wellLinked
  have arraysEnd := linked.arraysEnd
  have settlesStrict {types : List String} (matcher : MethodMatcher) :
      (matcher.apply (.ofTypes types)).owners = types ∧
        (matcher.apply (.ofTypes types)).ownerMatch = .strict := ⟨rfl, rfl⟩
  have settlesInherited {types : List String} (matcher : MethodMatcher) :
      (matcher.apply (.ofSubtypes types)).owners = types ∧
        (matcher.apply (.ofSubtypes types)).ownerMatch = .inherited := ⟨rfl, rfl⟩
  refine ⟨?restricts, ?owners, ?names⟩
  case restricts =>
    intro unsettled
    refine ⟨?_, ?_⟩
    · intro types asks method
      constructor
      · intro matched
        obtain ⟨owner, declared, name, member, isName⟩ :=
          owner_of_affirmed arraysEnd settlesStrict unsettled asks matched
        obtain ⟨-, isOwner, -, known⟩ := Table.declaringType?_eq_some_iff.1 declared
        exact ⟨owner, isOwner, known, isName ▸ member⟩
      · intro matched
        obtain ⟨owner, declared, name, member, below⟩ :=
          owner_of_affirmed arraysEnd settlesInherited unsettled asks matched
        obtain ⟨-, isOwner, -, known⟩ := Table.declaringType?_eq_some_iff.1 declared
        exact ⟨owner, isOwner, known, name, member, below,
          fun acyclic => below_of_isDeclaredBelow linked acyclic declared below⟩
    · intro call isEmpty method
      rcases List.mem_pair.1 isEmpty with rfl | rfl
      · exact affirmed_build_of_no_owners arraysEnd settlesStrict unsettled
      · exact affirmed_build_of_no_owners arraysEnd settlesInherited unsettled
  case owners =>
    intro types more asks enlarges
    have unrestricted : types = [] → more = [] := fun none => absurd none asks
    refine ⟨(extends_build ?_).subsumes arraysEnd history,
      (extends_build ?_).subsumes arraysEnd history⟩
    all_goals
      intro matcher
      exact { Extends.refl matcher with
        ownerMatch := rfl, owners := enlarges, unrestricted := unrestricted }
  case names =>
    intro names more enlarges
    refine (extends_build ?_).subsumes arraysEnd history
    intro matcher
    exact { Extends.refl matcher with name := .oneOf enlarges }

/-- Pipe declares flush and is below Source. Circles are about, and one was met before. -/
theorem owners_and_names_of_matches_flush :
    let history : List Request := [.superTypes ⟨20⟩]
    let ofTypes := fun types => build ([.named ["flush"]] ++ .ofTypes types :: [.withAnyParameters])
    let ofSubtypes := fun types =>
      build ([.named ["flush"]] ++ .ofSubtypes types :: [.withAnyParameters])
    ((ofTypes ["Pipe"]).matchesBinding tangled (some ⟨11⟩)).Affirmed tangled history ∧
      ((ofSubtypes ["Source"]).matchesBinding tangled (some ⟨11⟩)).Affirmed tangled history ∧
      (∃ owner, (tangled.entry ⟨11⟩).owner = some owner ∧ tangled.isKnown owner ∧
        (tangled.entry owner).qualifiedName ∈ ["Pipe"]) ∧
      (∃ owner, (tangled.entry ⟨11⟩).owner = some owner ∧ tangled.isKnown owner ∧
        ∃ name ∈ ["Source"], (isDeclaredBelow tangled ⟨11⟩ name).Affirmed tangled history ∧
          (Acyclic tangled.Above → tangled.SubtypeOfName owner name)) ∧
      Subsumes tangled history history (ofTypes ["Pipe"]) (ofTypes ["Sink", "Pipe"]) := by
  intro history ofTypes ofSubtypes
  obtain ⟨restricts, owners, -⟩ := owners_and_names_of_matches built_tangled history
    [.named ["flush"]] [.withAnyParameters]
  have isMatch :
      ((ofTypes ["Pipe"]).matchesBinding tangled (some ⟨11⟩)).Affirmed tangled history := by
    decide +kernel
  have isMatchBelow :
      ((ofSubtypes ["Source"]).matchesBinding tangled (some ⟨11⟩)).Affirmed tangled history := by
    decide +kernel
  have restricted := (restricts (by decide)).1
  exact ⟨isMatch, isMatchBelow, (restricted ["Pipe"] (by decide) ⟨11⟩).1 isMatch,
    (restricted ["Source"] (by decide) ⟨11⟩).2 isMatchBelow,
    (owners ["Pipe"] ["Sink", "Pipe"] (by decide) (by decide)).1⟩

/-- An empty list of owners lets flush match, though nothing is in the list, and a further owner
lets it not match any more. An empty list of names lets nothing match. -/
theorem no_owner_matches_all :
    ((build [.ofTypes []]).matchesBinding Table.channels (some ⟨11⟩)).Affirmed Table.channels [] ∧
      (¬ ∃ owner, (Table.channels.entry ⟨11⟩).owner = some owner ∧
        (Table.channels.entry owner).qualifiedName ∈ ([] : List String)) ∧
      ¬ Subsumes Table.channels [] [] (build [.ofTypes []]) (build [.ofTypes ["Sink"]]) ∧
      ¬ ((build [.named []]).matchesBinding Table.channels (some ⟨11⟩)).Affirmed
        Table.channels [] := by
  have isMatch : ((build [.ofTypes []]).matchesBinding Table.channels (some ⟨11⟩)).Affirmed
      Table.channels [] := by
    decide +kernel
  refine ⟨isMatch, by simp, ?_, by decide +kernel⟩
  intro subsumes
  exact absurd (subsumes.symbol ⟨11⟩ isMatch) (by decide +kernel)

end MethodMatcher

end JavaInspect
