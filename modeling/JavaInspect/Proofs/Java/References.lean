import JavaInspect.Java.Lowering.Resolve
import JavaInspect.Proofs.Binding.Calls
import JavaInspect.Proofs.Java.Declarations

/-!
# Steps of lowering and references to types

What a step of lowering does is stated about its answer and the state that it leaves behind.
The first steps are those that resolve the type names of a source text: they only widen the
binding table, and what they answer is a type of it.
-/

namespace JavaInspect.Java

namespace Lower

variable {Answer Next : Type} {action : Lower Answer} {next : Answer → Lower Next}
  {before after : Lowering} {claim weaker : Answer → Lowering → Prop}
  {final : Next → Lowering → Prop}

/-- What holds of the answer of a step and of the state that it leaves behind. -/
def Ensures (action : Lower Answer) (before : Lowering) (claim : Answer → Lowering → Prop) :
    Prop :=
  claim (action before).1 (action before).2

namespace Ensures

theorem imp (ensures : Ensures action before claim)
    (implies : ∀ answer after, claim answer after → weaker answer after) :
    Ensures action before weaker :=
  implies _ _ ensures

theorem pure {answer : Answer} (holds : claim answer before) :
    Ensures (Pure.pure answer) before claim :=
  holds

theorem bind (first : Ensures action before claim)
    (second : ∀ answer middle, claim answer middle → Ensures (next answer) middle final) :
    Ensures (action >>= next) before final :=
  second _ _ first

/-- Steps whose outcome is plain to see. -/
theorem step (rest : Ensures (next (action before).1) (action before).2 final) :
    Ensures (action >>= next) before final :=
  rest

theorem map {change : Answer → Next}
    (ensures : Ensures action before fun answer after => final (change answer) after) :
    Ensures (change <$> action) before final :=
  ensures

theorem get {next : Lowering → Lower Next} (ensures : Ensures (next before) before final) :
    Ensures (MonadState.get >>= next) before final :=
  ensures

/-- A choice of two actions that leaves the conditions inside of them as they are. -/
theorem ite {condition : Prop} [Decidable condition] {other : Lower Answer}
    (holds : condition → Ensures action before claim)
    (fails : ¬ condition → Ensures other before claim) :
    Ensures (if condition then action else other) before claim := by
  split
  · exact holds ‹_›
  · exact fails ‹_›

/-- Taking one step for each item. What holds of the items that are left goes on from state to
state. -/
theorem forM {Item : Type} {step : Item → Lower PUnit} (left : List Item → Lowering → Prop)
    {items : List Item} (start : left items before)
    (goesOn : ∀ item rest middle, left (item :: rest) middle →
      Ensures (step item) middle fun _ after => left rest after) :
    Ensures (items.forM step) before fun _ after => left [] after := by
  induction items generalizing before with
  | nil => exact start
  | cons item rest ih => exact ih (goesOn item rest before start)

/-- Taking one step for each item and collecting what is found. -/
theorem filterMapM {Item : Type} {step : Item → Lower (Option Answer)}
    (left : List Item → List Answer → Lowering → Prop) {items : List Item}
    (start : left items [] before)
    (goesOn : ∀ item rest found middle, left (item :: rest) found middle →
      Ensures (step item) middle fun answer after => left rest (found ++ answer.toList) after) :
    Ensures (items.filterMapM step) before fun found after => left [] found after := by
  suffices collected : ∀ found before, left items found before →
      Ensures (items.filterMapM step) before fun answers after => left [] (found ++ answers) after by
    simpa using collected [] before start
  clear start
  induction items with
  | nil =>
      intro found before start
      change left [] (found ++ []) before
      rwa [List.append_nil]
  | cons item rest ih =>
      intro found before start
      rw [List.filterMapM_cons]
      refine (goesOn item rest found before start).bind fun answer middle holds => ?_
      cases answer with
      | none => simpa using ih _ middle holds
      | some answer =>
          refine (ih _ middle holds).bind fun answers after holds => .pure ?_
          simpa using holds

end Ensures

end Lower

namespace Lowering

/-- A state in which names of types can be looked up. -/
structure Readable (state : Lowering) : Prop where
  typed : state.table.Typed
  localTypes : ∀ entry ∈ state.localTypes, state.table.Holds .type entry.2

/-- Only the binding table has changed, and it was only added to. -/
def Widens (before after : Lowering) : Prop :=
  ∃ table, after = { before with table } ∧ before.table.Widens table

/-- A type that was found in a state, or added to it. -/
def Refers (before : Lowering) (type : BindingId) (after : Lowering) : Prop :=
  before.Widens after ∧ after.table.Holds .type type

variable {state before middle after : Lowering} {type : BindingId} {name : String}

namespace Widens

theorem refl (readable : state.Readable) : state.Widens state :=
  ⟨state.table, rfl, .refl readable.typed⟩

theorem trans (first : before.Widens middle) (second : middle.Widens after) :
    before.Widens after := by
  rcases first with ⟨_, rfl, first⟩
  rcases second with ⟨_, rfl, second⟩
  exact ⟨_, rfl, first.trans second⟩

theorem readable (readable : before.Readable) (widens : before.Widens after) : after.Readable := by
  rcases widens with ⟨table, rfl, widens⟩
  exact ⟨widens.typed, fun entry isLocal => widens.grows.holds (readable.localTypes entry isLocal)⟩

theorem builder_eq (widens : before.Widens after) : after.builder = before.builder := by
  rcases widens with ⟨table, rfl, -⟩
  rfl

theorem holds (widens : before.Widens after) {kind : BindingKind}
    (held : before.table.Holds kind type) : after.table.Holds kind type := by
  rcases widens with ⟨table, rfl, widens⟩
  exact widens.grows.holds held

end Widens

theorem Refers.trans (first : before.Widens middle) (second : middle.Refers type after) :
    before.Refers type after :=
  ⟨first.trans second.1, second.2⟩

namespace Readable

theorem nestedType (readable : state.Readable) (found : state.nestedType? name = some type) :
    state.table.Holds .type type := by
  rcases List.exists_of_findSome?_eq_some found with ⟨_, _, found⟩
  exact readable.typed.lookupType found

theorem typeInPackages (readable : state.Readable) {packages : List String}
    (found : state.typeInPackages? packages name = some type) : state.table.Holds .type type := by
  rcases List.exists_of_findSome?_eq_some found with ⟨_, _, found⟩
  exact readable.typed.lookupType found

theorem lookupSimple (readable : state.Readable) {header : Header}
    (found : state.lookupSimple header name = some type) : state.table.Holds .type type := by
  unfold Lowering.lookupSimple at found
  split at found
  case h_1 isLocal =>
    obtain rfl := Option.some.inj found
    rcases List.lookup_eq_some_iff.1 isLocal with ⟨_, _, split, -⟩
    exact readable.localTypes _ (split ▸ List.mem_append_right _ List.mem_cons_self)
  case h_2 =>
    split at found
    case h_1 nested => exact readable.nestedType (Option.some.inj found ▸ nested)
    case h_2 =>
      split at found
      case h_1 => exact readable.typed.lookupType found
      case h_2 =>
        split at found
        case h_1 sibling => exact readable.typed.lookupType (Option.some.inj found ▸ sibling)
        case h_2 => exact readable.typeInPackages found

theorem lookupQualified (readable : state.Readable) {header : Header}
    (found : state.lookupQualified header name = some type) : state.table.Holds .type type := by
  unfold Lowering.lookupQualified at found
  split at found
  case h_1 declared => exact readable.typed.lookupType (Option.some.inj found ▸ declared)
  case h_2 =>
    rcases Option.bind_eq_some_iff.1 found with ⟨_, _, found⟩
    exact readable.typed.lookupType found

end Readable

end Lowering

namespace Lower

open Lowering

variable {before : Lowering} {source : Source} {phrase : Phrase} {name : String} {depth : Nat}
  {type : BindingId}

/-- A call on the table that refers to a type. -/
theorem refers_bind {call : Table → BindingId × Table} (refers : before.table.Refers (call before.table)) :
    Ensures (bind call) before before.Refers :=
  ⟨⟨_, rfl, refers.toWidens⟩, refers.isType⟩

variable (readable : before.Readable)
include readable

theorem refers_pure (isType : before.table.Holds .type type) :
    Ensures (pure type) before before.Refers :=
  ⟨.refl readable, isType⟩

theorem refers_rootReference : Ensures rootReference before before.Refers :=
  refers_bind (readable.typed.refers_typeReference rootTypeName)

theorem refers_resolveSimple (name : String) :
    Ensures (resolveSimple source name) before before.Refers := by
  apply Ensures.get
  split
  · exact refers_rootReference readable
  · split
    case h_1 found => exact refers_pure readable (readable.lookupSimple found)
    case h_2 => exact refers_bind (readable.typed.refers_unresolvedType _)

theorem refers_resolveQualified (name : String) :
    Ensures (resolveQualified source name) before before.Refers := by
  apply Ensures.get
  split
  case h_1 found => exact refers_pure readable (readable.lookupQualified found)
  case h_2 => exact refers_bind (readable.typed.refers_unresolvedType _)

theorem refers_resolveTypeName (written : String) :
    Ensures (resolveTypeName source written) before before.Refers := by
  unfold resolveTypeName
  dsimp only
  split
  · exact refers_resolveQualified readable _
  · exact refers_resolveSimple readable _

theorem refers_arrayOfDepth (isType : before.table.Holds .type type) :
    Ensures (arrayOfDepth type depth) before before.Refers :=
  refers_bind (readable.typed.refers_arrayOfDepth isType depth)

theorem refers_resolveTypeWithin (phrase : Phrase) :
    Ensures (resolveTypeWithin source depth phrase) before before.Refers := by
  induction depth generalizing before phrase with
  | zero => exact refers_rootReference readable
  | succ depth ih =>
      unfold resolveTypeWithin
      -- An array type is resolved after its component type, whichever way that is found.
      have array : ∀ {component : Lower BindingId} (count : Nat),
          Ensures component before before.Refers →
            Ensures (component >>= fun element => arrayOfDepth element count) before
              before.Refers :=
        fun count refers => refers.bind fun element middle ⟨widens, isType⟩ =>
          (refers_arrayOfDepth (widens.readable readable) isType).imp fun _ _ => .trans widens
      split
      case h_1 | h_2 | h_3 | h_4 => exact refers_bind (readable.typed.refers_primitive _)
      case h_5 =>
        dsimp only
        split
        case h_1 => exact array _ (ih readable _)
        case h_2 => exact array _ (refers_bind (readable.typed.refers_unresolvedType _))
      case h_6 =>
        dsimp only
        split
        case h_1 => exact ih readable _
        case h_2 => exact refers_resolveTypeName readable _
      case h_7 =>
        split
        case h_1 => exact ih readable _
        case h_2 => exact refers_rootReference readable
      case h_8 => exact refers_resolveTypeName readable _

theorem refers_resolveType (phrase : Phrase) :
    Ensures (resolveType source phrase) before before.Refers :=
  refers_resolveTypeWithin readable phrase

theorem refers_resolveTypeOrRoot (phrase : Option Phrase) :
    Ensures (resolveTypeOrRoot source phrase) before before.Refers := by
  cases phrase with
  | some phrase => exact refers_resolveType readable phrase
  | none => exact refers_rootReference readable

theorem refers_declaratorType (isType : before.table.Holds .type type) (declarator : Phrase) :
    Ensures (declaratorType source declarator type) before before.Refers := by
  unfold declaratorType
  split
  · exact refers_arrayOfDepth readable isType
  · exact refers_pure readable isType

/-- The parts of a parameter are there when it has a name, and its type is a type. -/
def IsParameter (parameter : Phrase) (before : Lowering)
    (parts : Option (Phrase × BindingId × Bool)) (after : Lowering) : Prop :=
  before.Widens after ∧ parts.map (·.1) = parameter.parameterName? ∧
    ∀ name type varargs, parts = some (name, type, varargs) → after.table.Holds .type type

theorem isParameter_parameterParts (parameter : Phrase) :
    Ensures (parameterParts source parameter) before (IsParameter parameter before) := by
  have absent : parameter.parameterName? = none →
      Ensures (pure none) before (IsParameter parameter before) :=
    fun noName => ⟨.refl readable, noName.symm, fun _ _ _ isSome => nomatch isSome⟩
  have named : ∀ {answer : Lower BindingId} {name : Phrase} {varargs : Bool},
      parameter.parameterName? = some name → Ensures answer before before.Refers →
        Ensures (answer >>= fun type => pure (some (name, type, varargs))) before
          (IsParameter parameter before) :=
    fun isName refers => refers.bind fun type after ⟨widens, isType⟩ =>
      ⟨widens, isName.symm, by
        rintro _ _ _ ⟨⟩
        exact isType⟩
  unfold parameterParts
  split
  case h_1 isFormal =>
    have reads : parameter.parameterName? = parameter.part? .name := by
      simp [Phrase.parameterName?, isFormal]
    split
    case h_1 noName => exact absent (reads.trans noName)
    case h_2 name isName =>
      rw [← bind_assoc]
      refine named (reads.trans isName)
        ((refers_resolveTypeOrRoot readable _).bind fun base middle ⟨widens, isType⟩ => ?_)
      exact (refers_declaratorType (widens.readable readable) isType parameter).imp
        fun _ _ => .trans widens
  case h_2 isSpread =>
    have reads : parameter.parameterName? =
        (parameter.namedParts.find? (·.construct == .variableDeclarator)).bind (·.part? .name) := by
      simp [Phrase.parameterName?, isSpread]
    dsimp only
    split
    case h_1 noName => exact absent (reads.trans noName)
    case h_2 name isName =>
      rw [← bind_assoc]
      refine named (reads.trans isName)
        ((refers_resolveTypeOrRoot readable _).bind fun base middle ⟨widens, isType⟩ => ?_)
      exact (refers_bind ((widens.readable readable).typed.refers_arrayOf base)).imp
        fun _ _ => .trans widens
  case h_3 notFormal notSpread =>
    refine absent ?_
    unfold Phrase.parameterName?
    split
    · exact (notFormal ‹_›).elim
    · exact (notSpread ‹_›).elim
    · rfl

theorem widens_parameterTypes (parameters : Option Phrase) :
    Ensures (parameterTypes source parameters) before fun _ after => before.Widens after := by
  unfold parameterTypes
  refine .bind (Ensures.filterMapM (fun _ _ after => before.Widens after)
    (.refl readable) fun item _ _ middle widens => ?_) fun _ _ widens => widens
  exact (isParameter_parameterParts (widens.readable readable) item).imp
    fun _ _ isParameter => widens.trans isParameter.1

end Lower

end JavaInspect.Java
