import JavaInspect.Proofs.Semantics.Recollection

/-!
# Walks along owners

A walk outwards finds the first or the last type on its way, or it meets a symbol again, which it
reports. Whatever is done with a context, it goes on recalling what such walks have found.
-/

namespace JavaInspect

open Relation Cache

namespace Cache

/-- A cache keeps its facades and goes on recalling. -/
structure Carries (table : Table) (before after : Cache) : Prop extends Keeps before after where
  recalls : after.Recalls table

theorem Carries.refl {table : Table} {cache : Cache} (recalls : cache.Recalls table) :
    Carries table cache cache :=
  ⟨.refl, recalls⟩

theorem Carries.trans {table : Table} {before middle after : Cache}
    (first : Carries table before middle) (second : Carries table middle after) :
    Carries table before after :=
  ⟨first.toKeeps.trans second.toKeeps, second.recalls⟩

/-- How a walk ends that began at a declaration and stops at a kind: it has come round a circle,
which becomes the fault, or it has found what it looks for. -/
inductive WalkEnds (table : Table) (kind : BindingKind) (finds : Option BindingId → Prop)
    (start : BindingId) (before : Cache) : Option SymbolId → Cache → Prop where
  | circle {after : Cache} (circles : table.CirclesWithout kind start)
      (fault : after.fault = before.fault.or (some (.ownerCycle start (table.entry start).name))) :
      WalkEnds table kind finds start before none after
  | found {answer : Option SymbolId} {after : Cache} {shown : Option BindingId}
      (isFound : finds shown) (isShown : Option.Rel after.ShowsSymbol answer shown)
      (fault : after.fault = before.fault) : WalkEnds table kind finds start before answer after

/-- A walk that goes on elsewhere ends there. -/
theorem WalkEnds.further {table : Table} {kind : BindingKind}
    {finds weaker : Option BindingId → Prop} {start : BindingId} {before middle after : Cache}
    {answer : Option SymbolId}
    (ends : WalkEnds table kind finds start middle answer after)
    (fault : middle.fault = before.fault) (implies : ∀ shown, finds shown → weaker shown) :
    WalkEnds table kind weaker start before answer after := by
  cases ends with
  | circle circles isFault => exact .circle circles (fault ▸ isFault)
  | found isFound isShown same => exact .found (implies _ isFound) isShown (same.trans fault)

end Cache

namespace Query

variable {table : Table} {before : Cache} {start binding next : BindingId}
  {startSymbol symbol : SymbolId} {seen : List SymbolId} {passed path : List BindingId}

/-! ## Symbols -/

theorem Ensures.readSymbol {Answer : Type} {rest : SymbolFacade → Query Answer}
    {claim : Answer → Cache → Prop} (ensures : Ensures (rest (before.symbol symbol)) before claim) :
    Ensures (Query.readSymbol symbol >>= rest) before claim :=
  ensures

theorem ensures_symbolOf (recalls : before.Recalls table) (binding : BindingId) :
    Ensures (symbolOf table binding) before fun symbol after =>
      Carries table before after ∧ after.fault = before.fault ∧
        after.ShowsSymbol symbol binding := by
  rw [Ensures]
  cases found : before.symbolIndex.lookup binding with
  | some symbol =>
      rw [symbolOf_of_found found]
      exact ⟨⟨keeps_noteHit, recalls.noteHit⟩, rfl,
        keeps_noteHit.showsSymbol (recalls.symbolIndex binding symbol found)⟩
  | none =>
      rw [symbolOf_of_new found]
      have recallsNow := recalls.withSymbol found
      exact ⟨⟨keeps_noteMiss.trans keeps_withSymbol, recallsNow⟩, rfl,
        recallsNow.symbolIndex binding _ (lookup_insert.trans (if_pos rfl))⟩

theorem ensures_reportOwnerCycle (recalls : before.Recalls table)
    (isShown : before.ShowsSymbol symbol binding) (circle : table.RunsInCircle binding) :
    Ensures (reportOwnerCycle symbol) before fun _ after => Carries table before after ∧
      after.fault = before.fault.or (some (.ownerCycle binding (table.entry binding).name)) := by
  rw [reportOwnerCycle]
  apply Ensures.readSymbol
  rw [recalls.name isShown, isShown.2]
  refine ⟨⟨keeps_recordFault, recalls.recordFault fun other name isFault => ?_⟩, rfl⟩
  exact (SemanticFault.ownerCycle.inj isFault).1 ▸ circle

/-- A symbol was seen when its declaration was passed. -/
theorem mem_seen_iff (recalls : before.Recalls table) (isShown : before.ShowsSymbol symbol binding)
    (seenShown : before.ShowsSymbols seen passed) : symbol ∈ seen ↔ binding ∈ passed :=
  List.rel_mem recalls.biUnique isShown seenShown

/-! ## The nearest type -/

/-- One step of the walk: it comes to a symbol again, finds a type, or goes on. -/
theorem ensures_enclosingStep {goOn : Query (Option SymbolId)} (recalls : before.Recalls table)
    (startShown : before.ShowsSymbol startSymbol start)
    (isShown : before.ShowsSymbol symbol binding) (seenShown : before.ShowsSymbols seen passed)
    (passing : table.Passing .type start passed binding)
    (goesOn : (table.entry binding).kind ≠ .type → binding ∉ passed →
      Ensures goOn before fun answer after => Carries table before after ∧
        WalkEnds table .type (table.FirstType binding) start before answer after) :
    Ensures (enclosingStep startSymbol symbol seen goOn) before fun answer after =>
      Carries table before after ∧
        WalkEnds table .type (table.FirstType binding) start before answer after := by
  rw [enclosingStep]
  by_cases again : symbol ∈ seen
  case pos =>
    have circles := passing.circles ((mem_seen_iff recalls isShown seenShown).1 again)
    simp only [List.contains_iff_mem, again, if_true]
    apply (ensures_reportOwnerCycle recalls startShown circles.1).bind
    intro _ after outcome
    exact ⟨outcome.1, .circle circles outcome.2⟩
  case neg =>
    have fresh := (mem_seen_iff recalls isShown seenShown).not.1 again
    simp only [List.contains_iff_mem, again, if_false]
    apply Ensures.readSymbol
    rw [recalls.kind isShown]
    by_cases isType : (table.entry binding).kind = .type
    · simp only [isType, beq_self_eq_true, if_true]
      exact ⟨.refl recalls, .found (.type isType) (.some isShown) rfl⟩
    · simp only [beq_eq_false_iff_ne.2 isType]
      exact goesOn isType fresh

theorem ensures_enclosingAlong (recalls : before.Recalls table)
    (startShown : before.ShowsSymbol startSymbol start)
    (isShown : before.ShowsSymbol symbol binding) (seenShown : before.ShowsSymbols seen passed)
    (passing : table.Passing .type start passed binding) (trail : table.Trail passed binding path) :
    Ensures (enclosingAlong table startSymbol symbol seen path) before fun answer after =>
      Carries table before after ∧
        WalkEnds table .type (table.FirstType binding) start before answer after := by
  -- The induction is on what lies ahead; `Passing` says what lies behind.
  induction trail generalizing before symbol seen with
  | ends noOwner =>
      rw [enclosingAlong]
      apply ensures_enclosingStep recalls startShown isShown seenShown passing
      intro noType _
      exact ⟨.refl recalls, .found (.ends noType noOwner) .none rfl⟩
  | again isPassed =>
      rw [enclosingAlong]
      apply ensures_enclosingStep recalls startShown isShown seenShown passing
      intro _ fresh
      exact absurd isPassed fresh
  | step owns _ ih =>
      rw [enclosingAlong]
      apply ensures_enclosingStep recalls startShown isShown seenShown passing
      intro noType _
      apply (ensures_symbolOf recalls _).bind
      rintro nextSymbol middle ⟨carries, sameFault, nextShown⟩
      have seenNow : middle.ShowsSymbols (symbol :: seen) _ :=
        .cons (carries.toKeeps.showsSymbol isShown) (carries.toKeeps.showsSymbols seenShown)
      rcases ih carries.recalls (carries.toKeeps.showsSymbol startShown) nextShown seenNow
        (passing.step noType owns) with ⟨carriesOn, ends⟩
      exact ⟨carries.trans carriesOn, ends.further sameFault fun _ => .step noType owns⟩

theorem ensures_enclosingClass (recalls : before.Recalls table)
    (isShown : before.ShowsSymbol symbol binding) :
    Ensures (enclosingClass table symbol) before fun answer after => Carries table before after ∧
      WalkEnds table .type (table.FirstType binding) binding before answer after := by
  have walks := ensures_enclosingAlong recalls isShown isShown .nil .begin
    (Table.trail_owners binding)
  rw [← isShown.2] at walks ⊢
  exact walks

/-! ## The outermost type -/

/-- What a walk outwards leaves that looks for the last type: it has come round a circle, or its
answer is what the owners lead to. -/
def LastShown (table : Table) (start binding : BindingId) (found : Option BindingId) :
    Option (Option SymbolId) → Cache → Prop
  | some answer, after =>
      ∃ shown, table.LastType found binding shown ∧ Option.Rel after.ShowsSymbol answer shown
  | none, _ => table.CirclesWithout .package start

theorem ensures_outermostStep {found : Option SymbolId} {foundShown : Option BindingId}
    {goOn : Option SymbolId → Query (Option (Option SymbolId))} (recalls : before.Recalls table)
    (isShown : before.ShowsSymbol symbol binding) (seenShown : before.ShowsSymbols seen passed)
    (isFound : Option.Rel before.ShowsSymbol found foundShown)
    (passing : table.Passing .package start passed binding)
    (goesOn : ∀ found, (table.entry binding).kind ≠ .package → binding ∉ passed →
      Option.Rel before.ShowsSymbol found (table.typeOr binding foundShown) →
      Ensures (goOn found) before fun answer after => Carries table before after ∧
        after.fault = before.fault ∧ LastShown table start binding foundShown answer after) :
    Ensures (outermostStep symbol seen found goOn) before fun answer after =>
      Carries table before after ∧ after.fault = before.fault ∧
        LastShown table start binding foundShown answer after := by
  rw [outermostStep]
  apply Ensures.readSymbol
  rw [recalls.kind isShown]
  by_cases isPackage : (table.entry binding).kind = .package
  · simp only [isPackage, beq_self_eq_true, if_true]
    exact ⟨.refl recalls, rfl, foundShown, .package isPackage, isFound⟩
  · simp only [beq_eq_false_iff_ne.2 isPackage]
    by_cases again : symbol ∈ seen
    · have circles := passing.circles ((mem_seen_iff recalls isShown seenShown).1 again)
      simp only [List.contains_iff_mem, again, if_true]
      exact ⟨.refl recalls, rfl, circles⟩
    · have fresh := (mem_seen_iff recalls isShown seenShown).not.1 again
      simp only [List.contains_iff_mem, again, if_false]
      refine goesOn _ isPackage fresh ?_
      by_cases isType : (table.entry binding).kind = .type
      · rw [Table.typeOr_of_type isType, isType]
        exact .some isShown
      · rw [Table.typeOr_of_other isType, beq_eq_false_iff_ne.2 isType]
        exact isFound

theorem ensures_outermostAlong {found : Option SymbolId} {foundShown : Option BindingId}
    (recalls : before.Recalls table) (isShown : before.ShowsSymbol symbol binding)
    (seenShown : before.ShowsSymbols seen passed)
    (isFound : Option.Rel before.ShowsSymbol found foundShown)
    (passing : table.Passing .package start passed binding)
    (trail : table.Trail passed binding path) :
    Ensures (outermostAlong table symbol seen found path) before fun answer after =>
      Carries table before after ∧ after.fault = before.fault ∧
        LastShown table start binding foundShown answer after := by
  induction trail generalizing before symbol seen found foundShown with
  | ends noOwner =>
      rw [outermostAlong]
      apply ensures_outermostStep recalls isShown seenShown isFound passing
      intro found noPackage _ isFound
      exact ⟨.refl recalls, rfl, _, .ends noPackage noOwner, isFound⟩
  | again isPassed =>
      rw [outermostAlong]
      apply ensures_outermostStep recalls isShown seenShown isFound passing
      intro _ _ fresh
      exact absurd isPassed fresh
  | step owns _ ih =>
      rw [outermostAlong]
      apply ensures_outermostStep recalls isShown seenShown isFound passing
      intro found noPackage _ isFound
      apply (ensures_symbolOf recalls _).bind
      rintro nextSymbol middle ⟨carries, sameFault, nextShown⟩
      have seenNow : middle.ShowsSymbols (symbol :: seen) _ :=
        .cons (carries.toKeeps.showsSymbol isShown) (carries.toKeeps.showsSymbols seenShown)
      rcases ih carries.recalls nextShown seenNow
        (optionRel_imp (fun _ _ => carries.toKeeps.showsSymbol) isFound)
        (passing.step noPackage owns) with ⟨carriesOn, still, ends⟩
      refine ⟨carries.trans carriesOn, still.trans sameFault, ?_⟩
      revert ends
      cases (outermostAlong table nextSymbol (symbol :: seen) found _ middle).1 with
      | none => exact id
      | some answer =>
          rintro ⟨shown, last, answerShown⟩
          exact ⟨shown, .step noPackage owns last, answerShown⟩

theorem ensures_outermostClass (recalls : before.Recalls table)
    (isShown : before.ShowsSymbol symbol binding) :
    Ensures (outermostClass table symbol) before fun answer after => Carries table before after ∧
      WalkEnds table .package (table.LastType none binding) binding before answer after := by
  rw [outermostClass]
  apply Ensures.readSymbol
  cases remembered : (before.symbol symbol).outermost with
  | some answer =>
      rcases recalls.outermost symbol answer isShown.1 remembered with ⟨shown, answerShown, last⟩
      rw [isShown.2] at last
      exact ⟨⟨keeps_noteHit, recalls.noteHit⟩, .found last
        (optionRel_imp (fun _ _ => keeps_noteHit.showsSymbol) answerShown) rfl⟩
  | none =>
      rw [isShown.2]
      apply (ensures_outermostAlong recalls isShown .nil .none .begin
        (Table.trail_owners binding)).bind
      rintro answer middle ⟨carries, sameFault, ends⟩
      have stillShown := carries.toKeeps.showsSymbol isShown
      cases answer with
      | none =>
          apply (ensures_reportOwnerCycle carries.recalls stillShown ends.1).bind
          rintro _ after ⟨carriesOn, fault⟩
          exact ⟨carries.trans carriesOn, .circle ends (sameFault ▸ fault)⟩
      | some answer =>
          rcases ends with ⟨shown, last, answerShown⟩
          have keeps : Keeps middle (middle.modifySymbol symbol fun facade =>
              { facade with outermost := some answer }) := keeps_modifySymbol fun _ => rfl
          refine ⟨carries.trans ⟨keeps, carries.recalls.remember stillShown answerShown last⟩, ?_⟩
          exact .found last (optionRel_imp (fun _ _ => keeps.showsSymbol) answerShown) sameFault

end Query

/-! ## Whole histories -/

namespace Cache.Recalls

variable {table : Table} {before after : Cache}

/-- Every move keeps what a context recalls. -/
theorem move (recalls : before.Recalls table) (move : Move table before after) :
    Carries table before after := by
  cases move with
  | type binding =>
      have same : SameSymbols before (Query.typeOf table binding before).2 :=
        Query.sameSymbols_typeOf before
      exact ⟨same.toKeeps, recalls.sameSymbols same⟩
  | symbol binding => exact (Query.ensures_symbolOf recalls binding).1
  | hit => exact ⟨keeps_noteHit, recalls.noteHit⟩
  | @remember symbol change keepsView keepsOutermost =>
      have keeps : Keeps before (before.modifySymbol symbol change) :=
        keeps_modifySymbol fun facade => congrArg SymbolView.binding (keepsView facade)
      exact ⟨keeps, recalls.of_same keeps (by simp [modifySymbol])
        (fun _ => read_modifySymbol SymbolFacade.view keepsView)
        (fun _ => read_modifySymbol SymbolFacade.outermost keepsOutermost) rfl recalls.fault⟩
  | supertypeCycle binding name =>
      exact ⟨keeps_recordFault, recalls.recordFault fun _ _ isFault => by cases isFault⟩
  | enclosing binding =>
      rcases Query.ensures_symbolOf recalls binding with ⟨carries, -, isShown⟩
      exact carries.trans (Query.ensures_enclosingClass carries.recalls isShown).1
  | outermost binding =>
      rcases Query.ensures_symbolOf recalls binding with ⟨carries, -, isShown⟩
      exact carries.trans (Query.ensures_outermostClass carries.recalls isShown).1
  | takeFault =>
      have keeps : Keeps before (Query.takeFault before).2 := .of_same rfl rfl
      exact ⟨keeps, recalls.of_same keeps rfl (fun _ _ => rfl) (fun _ _ => rfl) rfl
        fun _ _ isFault => by cases isFault⟩

theorem moves (recalls : before.Recalls table) (moves : Moves table before after) :
    Carries table before after := by
  induction moves with
  | refl => exact .refl recalls
  | tail _ move ih => exact ih.trans (ih.recalls.move move)

end Cache.Recalls

end JavaInspect
