import JavaInspect.Proofs.Semantics.SubtypeOrder

/-!
# Degraded tables

A table degrades when declarations turn out not to be resolved: bindings are marked as
recovered, and names no longer resolve. What is then still answered with yes, by a subtype
check or by a matcher, was answered with yes before: less knowledge never adds a match.
-/

namespace JavaInspect

open Relation

/-- An entry with nothing said about whether the declaration was resolved. -/
def Entry.asRecovered (entry : Entry) : Entry := { entry with recovered := true }

namespace Table

variable {table middle degraded : Table} {binding other lower upper : BindingId} {name : String}

/-! ## Degradation -/

/-- The table with bindings marked as recovered and names hidden. -/
def degrade (table : Table) (marked : List BindingId) (hidden : List String) : Table :=
  hidden.foldl hideType (marked.foldl markRecovered table)

/-- The second table says the same as the first one, apart from bindings that are recovered
only in the second one and from names that resolve. -/
structure Degrades (table degraded : Table) : Prop where
  entry : ∀ binding, (degraded.entry binding).asRecovered = (table.entry binding).asRecovered
  resolved : ∀ binding, (degraded.entry binding).recovered = false →
    (table.entry binding).recovered = false

namespace Degrades

theorem refl : Degrades table table where
  entry _ := rfl
  resolved _ resolved := resolved

theorem trans (first : Degrades table middle) (second : Degrades middle degraded) :
    Degrades table degraded where
  entry binding := (second.entry binding).trans (first.entry binding)
  resolved binding resolved := first.resolved binding (second.resolved binding resolved)

theorem markRecovered : Degrades table (table.markRecovered binding) where
  entry _ := proj_entry_modify Entry.asRecovered fun _ => rfl
  resolved other resolved := by
    rw [Table.markRecovered, Table.entry, modify, Array.getElem?_modify] at resolved
    split at resolved
    · cases isEntry : table.entries[other.index]? with
      | none => simp [Table.entry, isEntry]
      | some entry =>
          rw [isEntry] at resolved
          cases resolved
    · exact resolved

theorem hideType : Degrades table (table.hideType name) where
  entry _ := rfl
  resolved _ resolved := resolved

/-- Tables degrade by marking and hiding. -/
theorem degrade (table : Table) (marked : List BindingId) (hidden : List String) :
    Degrades table (table.degrade marked hidden) := by
  have marks : Degrades table (marked.foldl Table.markRecovered table) := by
    induction marked generalizing table with
    | nil => exact .refl
    | cons binding marked ih => exact markRecovered.trans (ih (table.markRecovered binding))
  have hides (middle : Table) : Degrades middle (hidden.foldl Table.hideType middle) := by
    induction hidden generalizing middle with
    | nil => exact .refl
    | cons name hidden ih => exact hideType.trans (ih (middle.hideType name))
  exact marks.trans (hides _)

end Degrades

theorem WellLinked.degrade (linked : table.WellLinked) (marked : List BindingId)
    (hidden : List String) : (table.degrade marked hidden).WellLinked := by
  have marks : (marked.foldl markRecovered table).WellLinked := by
    induction marked generalizing table with
    | nil => exact linked
    | cons binding marked ih => exact ih (linked.modify (fun _ => rfl) (fun _ => rfl) fun _ => rfl)
  rw [Table.degrade]
  generalize marked.foldl markRecovered table = middle at marks ⊢
  induction hidden generalizing middle with
  | nil => exact marks
  | cons name hidden ih =>
      have hides : (middle.hideType name).WellLinked :=
        marks.reindex rfl (fun _ => .inl) fun _ _ => .inl
      exact ih _ hides

/-! ## What is still known was known before -/

namespace Degrades

section Types

variable (degrades : Degrades table degraded)

include degrades

/-- What does not depend on the mark stays. -/
theorem same {Shown : Type} (binding : BindingId) (shows : Entry → Shown)
    (blind : ∀ entry : Entry, shows entry.asRecovered = shows entry) :
    shows (degraded.entry binding) = shows (table.entry binding) := by
  rw [← blind, degrades.entry, blind]

theorem facadeKind? {kind : TypeKind} (isKind : degraded.facadeKind? binding = some kind) :
    table.facadeKind? binding = some kind := by
  rw [facadeKind?_eq_some_iff] at isKind ⊢
  rcases isKind with ⟨isKind, different, resolved⟩
  have sameKind := degrades.same binding Entry.typeKind fun _ => rfl
  exact ⟨sameKind.symm.trans isKind, different, degrades.resolved binding resolved⟩

theorem isKnown (known : degraded.isKnown binding) : table.isKnown binding := by
  rcases Option.isSome_iff_exists.1 known with ⟨kind, isKind⟩
  rw [Table.isKnown, degrades.facadeKind? isKind]
  rfl

theorem isReference (reference : degraded.isReference binding) : table.isReference binding := by
  rcases Option.isSome_iff_exists.1 (isKnown_of_isReference reference) with ⟨kind, isKind⟩
  rw [Table.isReference, isKind] at reference
  rw [Table.isReference, degrades.facadeKind? isKind]
  exact reference

theorem isRoot : degraded.isRoot binding = table.isRoot binding :=
  degrades.same binding (·.qualifiedName == rootTypeName) fun _ => rfl

/-- A declaration that is recovered in the middle cuts off what is above it. -/
theorem above (isAbove : degraded.Above lower upper) : table.Above lower upper := by
  rw [above_iff] at isAbove ⊢
  rcases isAbove with ⟨resolved, isParent, known⟩
  have sameKind := degrades.same lower Entry.typeKind fun _ => rfl
  have sameSuperclass := degrades.same lower Entry.superclass fun _ => rfl
  have sameInterfaces := degrades.same lower Entry.interfaces fun _ => rfl
  rw [linearSuperclass?, sameKind, sameSuperclass, sameInterfaces] at isParent
  exact ⟨degrades.resolved lower resolved, isParent, degrades.isKnown known⟩

theorem acyclic (acyclic : Acyclic table.Above) : Acyclic degraded.Above := by
  intro start cycle
  exact acyclic start (TransGen.mono (fun _ _ => degrades.above) start start cycle)

theorem subtypeOf (isSubtype : degraded.SubtypeOf lower upper) : table.SubtypeOf lower upper := by
  rcases isSubtype with same | ⟨reference, isRoot | path⟩
  · exact .inl same
  · exact .inr ⟨degrades.isReference reference, .inl (degrades.isRoot ▸ isRoot)⟩
  · exact .inr ⟨degrades.isReference reference,
      .inr (TransGen.mono (fun _ _ => degrades.above) lower upper path)⟩

theorem subtypeOfName (isSubtype : degraded.SubtypeOfName lower name) :
    table.SubtypeOfName lower name := by
  rcases isSubtype with ⟨reference, isRootName⟩ | ⟨upper, isName, known, upperKnown, isSubtype⟩
  · exact .inl ⟨degrades.isReference reference, isRootName⟩
  · rw [degrades.same upper Entry.qualifiedName fun _ => rfl] at isName
    exact .inr ⟨upper, isName, degrades.isKnown known, degrades.isKnown upperKnown,
      degrades.subtypeOf isSubtype⟩

theorem isSome_known? (known : (degraded.known? binding).isSome) :
    (table.known? binding).isSome := by
  rw [known?, Option.isSome_ite] at known ⊢
  exact degrades.isKnown known

theorem isNamed (named : degraded.isNamed (degraded.known? binding) name) :
    table.isNamed (table.known? binding) name := by
  by_cases known : degraded.isKnown binding
  · rw [known?_of_isKnown known, Table.isNamed, Option.any_some,
      degrades.same binding (·.qualifiedName == name) fun _ => rfl] at named
    rwa [known?_of_isKnown (degrades.isKnown known)]
  · rw [known?_of_not_isKnown known] at named
    cases named

end Types

/-! ## What is still answered with yes -/

section Matchers

variable (linked : table.WellLinked) (degradedLinked : degraded.WellLinked)
  (degrades : Degrades table degraded) (noCircle : Acyclic table.Above) {matcher : MethodMatcher}
  {names : List String} {parameters : List BindingId}

open MethodMatcher

include degrades in
theorem acceptsTypes (accepted : acceptsTypes degraded names (parameters.map degraded.known?)) :
    acceptsTypes table names (parameters.map table.known?) := by
  simp only [MethodMatcher.acceptsTypes, List.length_map, List.zip_map_right, List.all_map,
    Bool.and_eq_true, List.all_eq_true] at accepted ⊢
  refine ⟨accepted.1, ?_⟩
  intro pair member
  have named := accepted.2 pair member
  simp only [Function.comp_apply, Prod.map] at named ⊢
  split at named
  case isTrue anyType =>
    rw [if_pos anyType]
    exact degrades.isSome_known? named
  case isFalse oneType =>
    rw [if_neg oneType]
    exact degrades.isNamed named

include degrades in
theorem acceptsParameterTypes
    (accepted : MethodMatcher.acceptsTypes degraded names (degraded.parameterTypesOf binding)) :
    MethodMatcher.acceptsTypes table names (table.parameterTypesOf binding) := by
  rw [parameterTypesOf, degrades.same binding Entry.kind fun _ => rfl,
    degrades.same binding Entry.parameters fun _ => rfl] at accepted
  rw [parameterTypesOf]
  split at accepted
  case isTrue isMethod =>
    rw [if_pos isMethod]
    exact degrades.acceptsTypes accepted
  case isFalse noMethod =>
    rw [if_neg noMethod, ← List.map_nil]
    rw [← List.map_nil] at accepted
    exact degrades.acceptsTypes accepted

include degrades in
theorem acceptsParameters (accepted : matcher.acceptsParameters degraded binding) :
    matcher.acceptsParameters table binding := by
  rw [MethodMatcher.acceptsParameters] at accepted ⊢
  revert accepted
  cases matcher.parameters with
  | any => exact id
  | exact names => exact degrades.acceptsParameterTypes
  | variadic names =>
      simp only [Bool.and_eq_true, degrades.same binding Entry.kind fun _ => rfl,
        degrades.same binding Entry.varargs fun _ => rfl]
      exact And.imp_right degrades.acceptsParameterTypes

include degrades in
theorem acceptsName : matcher.acceptsName degraded binding = matcher.acceptsName table binding := by
  have sameConstructor : isConstructor degraded binding = isConstructor table binding :=
    degrades.same binding (fun entry => entry.kind == .method && entry.isConstructor) fun _ => rfl
  have sameName := degrades.same binding Entry.name fun _ => rfl
  rw [MethodMatcher.acceptsName, MethodMatcher.acceptsName, sameConstructor, sameName]

include linked degradedLinked degrades noCircle in
theorem isBelowName (below : degraded.isBelowName (degraded.known? binding) name) :
    table.isBelowName (table.known? binding) name := by
  have grounded {table : Table} (acyclic : Acyclic table.Above) : Grounded table.Above binding :=
    grounded_of_noCycle fun finish _ => acyclic finish
  rw [isBelowName_iff degradedLinked (grounded (degrades.acyclic noCircle))] at below
  rw [isBelowName_iff linked (grounded noCircle)]
  exact degrades.subtypeOfName below

include linked degradedLinked degrades noCircle in
theorem acceptsOwner
    (accepted : matcher.acceptsOwner degraded (degraded.known? binding)) :
    matcher.acceptsOwner table (table.known? binding) := by
  rw [MethodMatcher.acceptsOwner, Bool.or_eq_true] at accepted ⊢
  rcases accepted with noOwner | accepted
  · exact .inl noOwner
  · right
    revert accepted
    cases matcher.ownerMatch with
    | strict =>
        simp only [List.any_eq_true]
        exact Exists.imp fun name => And.imp_right degrades.isNamed
    | inherited =>
        simp only [List.any_eq_true]
        exact Exists.imp fun name =>
          And.imp_right (degrades.isBelowName linked degradedLinked noCircle)

include linked degradedLinked degrades noCircle in
/-- A matcher that describes a method of the degraded table described it before. -/
theorem describes (described : matcher.describes degraded binding) :
    matcher.describes table binding := by
  have sameKind := degrades.same binding Entry.kind fun _ => rfl
  have sameOwner := degrades.same binding Entry.owner fun _ => rfl
  rw [MethodMatcher.describes, sameKind, sameOwner] at described
  rw [MethodMatcher.describes]
  simp only [Bool.and_eq_true, Bool.not_eq_true', Option.any_eq_true] at described ⊢
  rcases described with ⟨⟨isMethod, resolved⟩, owner, isOwner, described⟩
  rcases described with ⟨⟨⟨⟨isType, known⟩, ownerAccepted⟩, nameAccepted⟩, parametersAccepted⟩
  refine ⟨⟨isMethod, degrades.resolved binding resolved⟩, owner, isOwner, ?_⟩
  rw [degrades.same owner Entry.kind fun _ => rfl] at isType
  rw [← known?_of_isKnown known] at ownerAccepted
  have stillAccepted := degrades.acceptsOwner linked degradedLinked noCircle ownerAccepted
  have stillKnown := degrades.isKnown known
  rw [known?_of_isKnown stillKnown] at stillAccepted
  exact ⟨⟨⟨⟨isType, stillKnown⟩, stillAccepted⟩, degrades.acceptsName ▸ nameAccepted⟩,
    degrades.acceptsParameters parametersAccepted⟩

end Matchers

end Degrades

end Table

namespace Request

variable {table : Table} {history : List Request}

theorem granted_matchesBinding_iff (linked : table.WellLinked) (acyclic : Acyclic table.Above)
    {matcher : MethodMatcher} {method : BindingId} :
    Granted table history (.matchesBinding matcher (some method)) ↔
      matcher.describes table method := by
  have answered := (yields_ask_matchesBinding linked.arraysEnd
    (valid_cacheAfter linked.arraysEnd history) (idle_cacheAfter linked.arraysEnd history)
    matcher (some method)).2 fun binding _ => grounded_of_acyclic_above acyclic binding
  rw [Granted, answered, meaning, Answer.decision.injEq, Option.any_some]

/-- Degradation never invents a positive. Where supertypes do not run in a circle, a subtype
check against a name and a matcher are granted over the degraded table only if they are
granted over the table itself, whatever was asked before in either context. -/
theorem degradation_grants_less (built : table.Built) (acyclic : Acyclic table.Above)
    (marked : List BindingId) (hidden : List String) (history earlier : List Request) :
    (∀ type name, Granted (table.degrade marked hidden) history (.isSubtypeOf type name) →
      Granted table earlier (.isSubtypeOf type name)) ∧
    ∀ matcher method,
      Granted (table.degrade marked hidden) history (.matchesBinding matcher (some method)) →
        Granted table earlier (.matchesBinding matcher (some method)) := by
  have linked := built.wellLinked
  have degradedLinked := linked.degrade marked hidden
  have degrades := Table.Degrades.degrade table marked hidden
  have degradedAcyclic := degrades.acyclic acyclic
  constructor
  · intro type name granted
    rw [granted_isSubtypeOf_iff degradedLinked degradedAcyclic] at granted
    rw [granted_isSubtypeOf_iff linked acyclic]
    exact degrades.subtypeOfName granted
  · intro matcher method granted
    rw [granted_matchesBinding_iff degradedLinked degradedAcyclic] at granted
    rw [granted_matchesBinding_iff linked acyclic]
    exact degrades.describes linked degradedLinked acyclic granted

/-- Socket is below Channel through Source and through Sink. Without Source, and with Channel
not resolving any more, it still is. -/
theorem degradation_grants_less_channels :
    let matcher : MethodMatcher :=
      { owners := ["Sink"], ownerMatch := .inherited, name := .oneOf ["flush"] }
    let degraded := Table.channels.degrade [⟨3⟩] ["Channel"]
    Granted degraded [.superTypes ⟨6⟩] (.isSubtypeOf ⟨6⟩ "Channel") ∧
      ¬ Granted degraded [] (.isSubtypeOf ⟨6⟩ "Source") ∧
      Granted Table.channels [] (.isSubtypeOf ⟨6⟩ "Channel") ∧
      Granted degraded [.typeOf ⟨5⟩] (.matchesBinding matcher (some ⟨11⟩)) ∧
      Granted Table.channels [] (.matchesBinding matcher (some ⟨11⟩)) := by
  intro matcher degraded
  have built : Table.channels.Built := Table.built_iff.2 ⟨_, rfl⟩
  have isSubtype : Granted degraded [.superTypes ⟨6⟩] (.isSubtypeOf ⟨6⟩ "Channel") := by
    decide +kernel
  have isMatch : Granted degraded [.typeOf ⟨5⟩] (.matchesBinding matcher (some ⟨11⟩)) := by
    decide +kernel
  have wasSubtype := (degradation_grants_less built Table.acyclic_above_channels [⟨3⟩] ["Channel"]
    [.superTypes ⟨6⟩] []).1 _ _ isSubtype
  have wasMatch := (degradation_grants_less built Table.acyclic_above_channels [⟨3⟩] ["Channel"]
    [.typeOf ⟨5⟩] []).2 _ _ isMatch
  exact ⟨isSubtype, by decide +kernel, wasSubtype, isMatch, wasMatch⟩

end Request

end JavaInspect
