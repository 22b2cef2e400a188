import JavaInspect.Proofs.Semantics.Members

/-!
# The types around a declaration

A walk along the owners of a declaration keeps the symbols that it has seen. It meets one
again only when the owners run in a circle; otherwise it yields the nearest or the
outermost type on the way.
-/

namespace JavaInspect

open Relation Cache

namespace Table

variable (table : Table)

/-- The owners of a declaration run into a circle. -/
def RunsInCircle (binding : BindingId) : Prop :=
  ∃ cyclic, ReflTransGen table.Owns binding cyclic ∧ TransGen table.Owns cyclic cyclic

/-- The fault of a declaration whose owners run into a circle. -/
def CircleOf (binding : BindingId) (fault : SemanticFault) : Prop :=
  fault = .ownerCycle binding (table.entry binding).name ∧ table.RunsInCircle binding

/-- The nearest type around a declaration, itself included. -/
def enclosing (binding : BindingId) : Option BindingId :=
  (binding :: table.owners binding).find? fun declared => (table.entry declared).kind == .type

variable {table} {binding : BindingId}

/-- A declaration that is no type itself lies in its owner, if that is a type. -/
theorem enclosing_of_owner {type : BindingId} (noType : (table.entry binding).kind ≠ .type)
    (isOwner : (table.entry binding).owner = some type) (isType : (table.entry type).kind = .type) :
    table.enclosing binding = some type := by
  have first : ∃ rest, table.owners binding = type :: rest := by
    rw [owners, chain, chainWithin, isOwner]
    dsimp only
    split
    · exact ⟨_, rfl⟩
    · exact ⟨[], rfl⟩
  rcases first with ⟨rest, isFirst⟩
  rw [enclosing, isFirst, List.find?_cons_of_neg (by simpa using noType),
    List.find?_cons_of_pos (by simpa using isType)]

theorem not_grounded_of_circle (circle : table.RunsInCircle binding) :
    ¬ Grounded table.Owns binding := by
  rcases circle with ⟨cyclic, path, returns⟩
  intro grounded
  exact (grounded.reached path).noCycle returns

end Table

namespace Query

variable {table : Table} {before : Cache} {start binding : BindingId}
  {startSymbol symbol : SymbolId} {seen : List SymbolId} {passed path : List BindingId}

/-- A walk along the owners of a declaration: what it has seen lies behind it, and what
is left of the path follows. -/
structure Walking (table : Table) (before : Cache) (start : BindingId) (seen : List SymbolId)
    (passed : List BindingId) (binding : BindingId) (path : List BindingId) : Prop where
  seenShown : before.ShowsSymbols seen passed
  passed : ∀ earlier ∈ passed, TransGen table.Owns earlier binding
  started : ReflTransGen table.Owns start binding
  linked : List.IsChain table.Owns (binding :: path)

namespace Walking

theorem begin : Walking table before binding [] [] binding (table.owners binding) where
  seenShown := .nil
  passed _ member := by cases member
  started := .refl
  linked := table.isChain_chain binding

/-- The next step of a walk. -/
theorem step {after : Cache} {next : BindingId}
    (walking : Walking table before start seen passed binding (next :: path))
    (keeps : Keeps before after) (isShown : before.ShowsSymbol symbol binding) :
    Walking table after start (symbol :: seen) (binding :: passed) next path := by
  rcases List.isChain_cons_cons.1 walking.linked with ⟨owns, linked⟩
  constructor
  case seenShown => exact .cons (keeps.showsSymbol isShown) (keeps.showsSymbols walking.seenShown)
  case passed =>
    intro earlier member
    rcases List.mem_cons.1 member with rfl | member
    · exact .single owns
    · exact (walking.passed earlier member).tail owns
  case started => exact walking.started.tail owns
  case linked => exact linked

/-- Meeting a symbol again closes a circle. -/
theorem circle (walking : Walking table before start seen passed binding path)
    (valid : before.Valid table) (isShown : before.ShowsSymbol symbol binding)
    (again : symbol ∈ seen) : table.RunsInCircle start := by
  have metBefore : binding ∈ passed :=
    (List.rel_mem valid.biUnique_showsSymbol isShown walking.seenShown).1 again
  exact ⟨binding, walking.started, walking.passed binding metBefore⟩

end Walking

theorem yields_reportOwnerCycle (valid : before.Valid table)
    (isShown : before.ShowsSymbol symbol binding) (circle : table.RunsInCircle binding) :
    Yields table (table.CircleOf binding) (reportOwnerCycle symbol) before fun _ _ => True := by
  have describes := valid.describesSymbol isShown
  rw [reportOwnerCycle]
  apply Yields.readSymbol
  rw [describes.binding, describes.name]
  exact (Yields.recordFault valid ⟨rfl, circle⟩).imp fun _ _ _ _ => trivial

/-- One step of the walk: it ends at a symbol met again, or at a type. -/
theorem yields_enclosingStep {rest : Query (Option SymbolId)} (valid : before.Valid table)
    (startShown : before.ShowsSymbol startSymbol start)
    (isShown : before.ShowsSymbol symbol binding)
    (walking : Walking table before start seen passed binding path)
    (goOn : (table.entry binding).kind ≠ .type → Yields table (table.CircleOf start) rest before
      fun answer after => Grounded table.Owns start → Option.Rel after.ShowsSymbol answer
        (path.find? fun declared => (table.entry declared).kind == .type)) :
    Yields table (table.CircleOf start) (enclosingStep startSymbol symbol seen rest) before
      fun answer after => Grounded table.Owns start → Option.Rel after.ShowsSymbol answer
        ((binding :: path).find? fun declared => (table.entry declared).kind == .type) := by
  have describes := valid.describesSymbol isShown
  rw [enclosingStep]
  by_cases again : symbol ∈ seen
  · have circle := walking.circle valid isShown again
    simp only [List.contains_iff_mem, again, if_true]
    apply (yields_reportOwnerCycle valid startShown circle).bind
    intro _ after leads _
    apply Yields.pure leads.valid
    intro grounded
    exact absurd grounded (Table.not_grounded_of_circle circle)
  · simp only [List.contains_iff_mem, again, if_false]
    apply Yields.readSymbol
    rw [describes.kind, List.find?_cons]
    by_cases isType : (table.entry binding).kind = .type
    · simp only [isType, beq_self_eq_true, if_true]
      exact .pure valid fun _ => .some isShown
    · simp only [beq_eq_false_iff_ne.2 isType]
      exact goOn isType

theorem yields_enclosingAlong (valid : before.Valid table)
    (startShown : before.ShowsSymbol startSymbol start)
    (isShown : before.ShowsSymbol symbol binding)
    (walking : Walking table before start seen passed binding path) :
    Yields table (table.CircleOf start) (enclosingAlong table startSymbol symbol seen path) before
      fun answer after => Grounded table.Owns start → Option.Rel after.ShowsSymbol answer
        ((binding :: path).find? fun declared => (table.entry declared).kind == .type) := by
  -- The induction is on what lies ahead; `Walking` says how it fits what lies behind.
  induction path generalizing before binding symbol seen passed with
  | nil =>
      rw [enclosingAlong]
      apply yields_enclosingStep valid startShown isShown walking
      intro _
      exact .pure valid fun _ => .none
  | cons next path ih =>
      rw [enclosingAlong]
      apply yields_enclosingStep valid startShown isShown walking
      intro _
      apply (yields_symbolOf valid).bind
      intro nextSymbol middle leads nextShown
      exact ih leads.valid (leads.toKeeps.showsSymbol startShown) nextShown
        (walking.step leads.toKeeps isShown)

theorem yields_enclosingClass (valid : before.Valid table)
    (isShown : before.ShowsSymbol symbol binding) :
    Yields table (table.CircleOf binding) (enclosingClass table symbol) before
      fun answer after => Grounded table.Owns binding →
        Option.Rel after.ShowsSymbol answer (table.enclosing binding) := by
  rw [enclosingClass]
  apply Yields.readSymbol
  rw [isShown.2]
  exact yields_enclosingAlong valid isShown isShown .begin

/-! ## The outermost type -/

/-- The walk ends with the outermost type, or without an answer in a circle. -/
def ShowsOutermost (table : Table) (start : BindingId) (shown : Option BindingId) :
    Option (Option SymbolId) → Cache → Prop
  | some answer, after => Option.Rel after.ShowsSymbol answer shown
  | none, _ => table.RunsInCircle start

theorem yields_outermostStep {found : Option SymbolId} {shown : Option BindingId}
    {goOn : Option SymbolId → Query (Option (Option SymbolId))}
    (valid : before.Valid table) (isShown : before.ShowsSymbol symbol binding)
    (foundShown : Option.Rel before.ShowsSymbol found shown)
    (walking : Walking table before start seen passed binding path)
    (goesOn : ∀ found shown, Option.Rel before.ShowsSymbol found shown →
      Yields table (table.CircleOf start) (goOn found) before
        (ShowsOutermost table start (table.outermostAmong shown path))) :
    Yields table (table.CircleOf start) (outermostStep symbol seen found goOn) before
      (ShowsOutermost table start (table.outermostAmong shown (binding :: path))) := by
  have describes := valid.describesSymbol isShown
  rw [outermostStep, Table.outermostAmong]
  apply Yields.readSymbol
  rw [describes.kind]
  by_cases again : symbol ∈ seen
  · have circle := walking.circle valid isShown again
    simp only [List.contains_iff_mem, again, if_true]
    cases (table.entry binding).kind with
    | package => exact .pure valid foundShown
    | type | method | «variable» => exact .pure valid circle
  · simp only [List.contains_iff_mem, again, if_false]
    cases (table.entry binding).kind with
    | package => exact .pure valid foundShown
    | type => exact goesOn (some symbol) (some binding) (.some isShown)
    | method | «variable» => exact goesOn found shown foundShown

theorem yields_outermostAlong {found : Option SymbolId} {shown : Option BindingId}
    (valid : before.Valid table) (isShown : before.ShowsSymbol symbol binding)
    (foundShown : Option.Rel before.ShowsSymbol found shown)
    (walking : Walking table before start seen passed binding path) :
    Yields table (table.CircleOf start) (outermostAlong table symbol seen found path) before
      (ShowsOutermost table start (table.outermostAmong shown (binding :: path))) := by
  induction path generalizing before binding symbol seen passed found shown with
  | nil =>
      rw [outermostAlong]
      apply yields_outermostStep valid isShown foundShown walking
      intro found shown foundShown
      exact .pure valid foundShown
  | cons next path ih =>
      rw [outermostAlong]
      apply yields_outermostStep valid isShown foundShown walking
      intro found shown foundShown
      apply (yields_symbolOf valid).bind
      intro nextSymbol middle leads nextShown
      have stillFound := optionRel_imp (fun _ _ => leads.toKeeps.showsSymbol) foundShown
      exact ih leads.valid nextShown stillFound
        (walking.step leads.toKeeps isShown)

theorem yields_outermostClass (valid : before.Valid table)
    (isShown : before.ShowsSymbol symbol binding) :
    Yields table (table.CircleOf binding) (outermostClass table symbol) before
      fun answer after => Grounded table.Owns binding →
        Option.Rel after.ShowsSymbol answer (table.outermost binding) := by
  have describes := valid.describesSymbol isShown
  rw [outermostClass]
  apply Yields.readSymbol
  cases remembered : (before.symbol symbol).outermost with
  | some answer =>
      apply (Yields.noteHit valid).bind
      intro _ _ leads same
      subst same
      have stillShown := optionRel_imp (fun _ _ => leads.toKeeps.showsSymbol)
        (describes.outermost answer remembered)
      exact .pure leads.valid fun _ => stillShown
  | none =>
      rw [describes.binding]
      apply (yields_outermostAlong valid isShown .none .begin).bind
      intro answer middle leads holds
      have middleShown := leads.toKeeps.showsSymbol isShown
      cases answer with
      | none =>
          apply (yields_reportOwnerCycle leads.valid middleShown holds).bind
          intro _ after leads _
          apply Yields.pure leads.valid
          intro grounded
          exact absurd grounded (Table.not_grounded_of_circle holds)
      | some answer =>
          have describes := leads.valid.describesSymbol middleShown
          have remembers : Leads table (table.CircleOf binding) middle
              (middle.modifySymbol symbol fun facade => { facade with outermost := some answer }) :=
            leads_modifySymbol leads.valid (fun _ => rfl) (fun _ => rfl) (fun _ => rfl) middleShown
              { describes with
                outermost := by
                  intro _ isSame
                  cases isSame
                  exact holds }
          exact ⟨remembers, fun _ => optionRel_imp (fun _ _ => remembers.toKeeps.showsSymbol) holds⟩

end Query

end JavaInspect
