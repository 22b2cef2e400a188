import JavaInspect.Proofs.Semantics.OwnerWalks

/-!
# The types around declarations on any table

The loops that walk outwards end on every table, whatever owners it has. They report a circle where
there is one, and otherwise find the first type on the way outwards and the last one before a
package. A context that has reported nothing gives one answer about the outermost type, whatever
else it is asked.
-/

namespace JavaInspect

open Relation Cache Query

namespace Query

variable {table : Table} {before : Cache} {binding next type : BindingId}
  {startSymbol symbol : SymbolId} {seen : List SymbolId} {passed path : List BindingId}

/-! ## The loops -/

section Loops

variable (table)

/-- The loop that looks for the nearest type, for a number of turns; `beyond` answers after
them. -/
def enclosingWithin (beyond : Query (Option SymbolId)) (start : SymbolId) : Nat → SymbolId →
    List SymbolId → Query (Option SymbolId)
  | 0, _, _ => beyond
  | turns + 1, symbol, seen => enclosingStep start symbol seen do
      match ← owner table symbol with
      | some next => enclosingWithin beyond start turns next (symbol :: seen)
      | none => return none

/-- The loop that looks for the last type below a package, for a number of turns. -/
def outermostWithin (beyond : Query (Option (Option SymbolId))) : Nat → SymbolId →
    List SymbolId → Option SymbolId → Query (Option (Option SymbolId))
  | 0, _, _, _ => beyond
  | turns + 1, symbol, seen, found => outermostStep symbol seen found fun found => do
      match ← owner table symbol with
      | some next => outermostWithin beyond turns next (symbol :: seen) found
      | none => return some found

/-- The outermost type, with the loop in place of the chain of owners. -/
def outermostClassWithin (beyond : Query (Option (Option SymbolId))) (turns : Nat)
    (symbol : SymbolId) : Query (Option SymbolId) := do
  let facade ← readSymbol symbol
  match facade.outermost with
  | some answer =>
      noteHit
      return answer
  | none =>
      match ← outermostWithin table beyond turns symbol [] none with
      | some answer =>
          modifySymbol symbol fun facade => { facade with outermost := some answer }
          return answer
      | none =>
          reportOwnerCycle symbol
          return none

end Loops

section Turns

variable {Answer : Type} {turns : Nat} {found : Option SymbolId}

theorem owner_bind_of_noOwner {rest : Option SymbolId → Query Answer}
    (isShown : before.ShowsSymbol symbol binding)
    (noOwner : (table.entry binding).owner = none) :
    (owner table symbol >>= rest) before = rest none before := by
  have asked : owner table symbol before = (none, before) := by
    rw [owner, readSymbol_bind_apply, isShown.2, noOwner]
    rfl
  show rest (owner table symbol before).1 (owner table symbol before).2 = _
  rw [asked]

theorem owner_bind_of_owner {rest : Option SymbolId → Query Answer}
    (isShown : before.ShowsSymbol symbol binding) (owns : table.Owns binding next) :
    (owner table symbol >>= rest) before =
      (symbolOf table next >>= fun symbol => rest (some symbol)) before := by
  have asked : owner table symbol before = (some <$> symbolOf table next : Query _) before := by
    have isOwner : (table.entry binding).owner = some next := owns
    rw [owner, readSymbol_bind_apply, isShown.2, isOwner]
  show rest (owner table symbol before).1 (owner table symbol before).2 = _
  rw [asked]
  rfl

/-- How a walk goes on matters only where it does. -/
theorem enclosingStep_congr {left right : Query (Option SymbolId)}
    (same : symbol ∉ seen → left before = right before) :
    enclosingStep startSymbol symbol seen left before =
      enclosingStep startSymbol symbol seen right before := by
  by_cases again : symbol ∈ seen
  · simp only [enclosingStep, List.contains_iff_mem, again, if_true]
  · simp only [enclosingStep, List.contains_iff_mem, again, if_false]
    show (if _ then _ else left : Query _) before = (if _ then _ else right : Query _) before
    split
    · rfl
    · exact same again

theorem outermostStep_congr {left right : Option SymbolId → Query (Option (Option SymbolId))}
    (same : symbol ∉ seen → ∀ found, left found before = right found before) :
    outermostStep symbol seen found left before = outermostStep symbol seen found right before := by
  by_cases again : symbol ∈ seen
  · simp only [outermostStep, List.contains_iff_mem, again, if_true]
  · simp only [outermostStep, List.contains_iff_mem, again, if_false]
    show (if _ then _ else left _ : Query _) before = (if _ then _ else right _ : Query _) before
    split
    · rfl
    · exact same again _

theorem symbolOf_bind_congr {left right : SymbolId → Query Answer} (recalls : before.Recalls table)
    (same : ∀ symbol middle, Carries table before middle → middle.ShowsSymbol symbol next →
      left symbol middle = right symbol middle) :
    (symbolOf table next >>= left) before = (symbolOf table next >>= right) before := by
  rcases ensures_symbolOf recalls next with ⟨carries, -, isShown⟩
  exact same _ _ carries isShown

/-- The loop ends where the chain of owners does. -/
theorem enclosingWithin_eq {beyond : Query (Option SymbolId)} (recalls : before.Recalls table)
    (isShown : before.ShowsSymbol symbol binding) (seenShown : before.ShowsSymbols seen passed)
    (trail : table.Trail passed binding path) (enough : path.length < turns) :
    enclosingWithin table beyond startSymbol turns symbol seen before =
      enclosingAlong table startSymbol symbol seen path before := by
  induction trail generalizing before symbol seen turns with
  | ends noOwner =>
      cases turns with
      | zero => cases enough
      | succ turns =>
          rw [enclosingWithin, enclosingAlong]
          exact enclosingStep_congr fun _ => owner_bind_of_noOwner isShown noOwner
  | again isPassed =>
      cases turns with
      | zero => cases enough
      | succ turns =>
          rw [enclosingWithin, enclosingAlong]
          have isSeen := (mem_seen_iff recalls isShown seenShown).2 isPassed
          exact enclosingStep_congr fun fresh => absurd isSeen fresh
  | step owns _ ih =>
      cases turns with
      | zero => cases enough
      | succ turns =>
          rw [enclosingWithin, enclosingAlong]
          refine enclosingStep_congr fun _ => (owner_bind_of_owner isShown owns).trans ?_
          refine symbolOf_bind_congr recalls fun nextSymbol middle carries nextShown => ?_
          have seenNow : middle.ShowsSymbols (symbol :: seen) _ :=
            .cons (carries.toKeeps.showsSymbol isShown) (carries.toKeeps.showsSymbols seenShown)
          exact ih carries.recalls nextShown seenNow (Nat.lt_of_succ_lt_succ enough)

theorem outermostWithin_eq {beyond : Query (Option (Option SymbolId))}
    (recalls : before.Recalls table) (isShown : before.ShowsSymbol symbol binding)
    (seenShown : before.ShowsSymbols seen passed) (trail : table.Trail passed binding path)
    (enough : path.length < turns) :
    outermostWithin table beyond turns symbol seen found before =
      outermostAlong table symbol seen found path before := by
  induction trail generalizing before symbol seen found turns with
  | ends noOwner =>
      cases turns with
      | zero => cases enough
      | succ turns =>
          rw [outermostWithin, outermostAlong]
          exact outermostStep_congr fun _ _ => owner_bind_of_noOwner isShown noOwner
  | again isPassed =>
      cases turns with
      | zero => cases enough
      | succ turns =>
          rw [outermostWithin, outermostAlong]
          have isSeen := (mem_seen_iff recalls isShown seenShown).2 isPassed
          exact outermostStep_congr fun fresh => absurd isSeen fresh
  | step owns _ ih =>
      cases turns with
      | zero => cases enough
      | succ turns =>
          rw [outermostWithin, outermostAlong]
          refine outermostStep_congr fun _ found => (owner_bind_of_owner isShown owns).trans ?_
          refine symbolOf_bind_congr recalls fun nextSymbol middle carries nextShown => ?_
          have seenNow : middle.ShowsSymbols (symbol :: seen) _ :=
            .cons (carries.toKeeps.showsSymbol isShown) (carries.toKeeps.showsSymbols seenShown)
          exact ih carries.recalls nextShown seenNow (Nat.lt_of_succ_lt_succ enough)

theorem enclosingClass_loop {beyond : Query (Option SymbolId)} (recalls : before.Recalls table)
    (inside : symbol.index < before.symbols.size) (enough : table.size + 2 ≤ turns) :
    enclosingWithin table beyond symbol turns symbol [] before =
      enclosingClass table symbol before :=
  enclosingWithin_eq recalls ⟨inside, rfl⟩ .nil (Table.trail_owners _)
    (Nat.lt_of_le_of_lt (Table.length_owners_le _) enough)

theorem outermostClass_loop {beyond : Query (Option (Option SymbolId))}
    (recalls : before.Recalls table) (inside : symbol.index < before.symbols.size)
    (enough : table.size + 2 ≤ turns) :
    outermostClassWithin table beyond turns symbol before = outermostClass table symbol before := by
  have same : outermostWithin table beyond turns symbol [] none before =
      outermostAlong table symbol [] none (table.owners (before.symbol symbol).binding) before :=
    outermostWithin_eq recalls ⟨inside, rfl⟩ .nil (Table.trail_owners _)
      (Nat.lt_of_le_of_lt (Table.length_owners_le _) enough)
  rw [outermostClassWithin, outermostClass]
  show (match (before.symbol symbol).outermost with
      | some answer => _
      | none => _ : Query _) before =
    (match (before.symbol symbol).outermost with
      | some answer => _
      | none => _ : Query _) before
  cases (before.symbol symbol).outermost with
  | some answer => rfl
  | none =>
      show (match (outermostWithin table beyond turns symbol [] none before).1 with
          | some answer => _
          | none => _ : Query _) (outermostWithin table beyond turns symbol [] none before).2 = _
      rw [same]
      rfl

end Turns

end Query

/-! ## What is found -/

namespace Cache

/-- A walk that began at a declaration and stops at a kind has answered: either it has reported that
the owners run in a circle without the kind, or its answer shows the type that is sought, if there
is one. -/
structure Finds (table : Table) (kind : BindingKind) (sought : BindingId → Prop)
    (binding : BindingId) (answer : Option SymbolId) (after : Cache) : Prop where
  circle_iff : (∃ reported name, after.fault = some (.ownerCycle reported name)) ↔
    table.CirclesWithout kind binding
  circle : table.CirclesWithout kind binding →
    answer = none ∧ after.fault = some (.ownerCycle binding (table.entry binding).name)
  found : ¬ table.CirclesWithout kind binding → after.fault = none ∧
    ∃ shown, Option.Rel after.ShowsSymbol answer shown ∧ ∀ type, shown = some type ↔ sought type

variable {table : Table} {kind : BindingKind} {finds : Option BindingId → Prop}
  {sought : BindingId → Prop} {binding type : BindingId} {before cache after : Cache}
  {answer other : Option SymbolId} {shown : Option BindingId} {symbol : SymbolId}

theorem WalkEnds.answers (ends : WalkEnds table kind finds binding before answer after)
    (noFault : before.fault = none)
    (apart : ∀ shown, finds shown → ¬ table.CirclesWithout kind binding)
    (means : ∀ shown type, finds shown → (shown = some type ↔ sought type)) :
    Finds table kind sought binding answer after := by
  cases ends with
  | circle circles fault =>
      rw [noFault, Option.none_or] at fault
      exact ⟨iff_of_true ⟨_, _, fault⟩ circles, fun _ => ⟨rfl, fault⟩,
        fun not => absurd circles not⟩
  | @found _ _ shown isFound isShown fault =>
      have not := apart shown isFound
      rw [noFault] at fault
      refine ⟨iff_of_false ?_ not, fun circles => absurd circles not,
        fun _ => ⟨fault, shown, isShown, fun type => means shown type isFound⟩⟩
      rintro ⟨reported, name, isFault⟩
      cases fault.symm.trans isFault

theorem WalkEnds.of_noFault (ends : WalkEnds table kind finds binding before answer after)
    (noFault : after.fault = none) :
    ∃ shown, finds shown ∧ Option.Rel after.ShowsSymbol answer shown := by
  cases ends with
  | circle _ fault =>
      rw [noFault] at fault
      cases earlier : before.fault <;> simp [earlier] at fault
  | found isFound isShown _ => exact ⟨_, isFound, isShown⟩

/-- Answers that show the same are the same. -/
theorem Recalls.answer_eq (recalls : cache.Recalls table)
    (isShown : Option.Rel cache.ShowsSymbol answer shown)
    (otherShown : Option.Rel cache.ShowsSymbol other shown) : answer = other := by
  cases isShown with
  | none =>
      cases otherShown
      rfl
  | some isShown =>
      cases otherShown with
      | some otherShown => exact congrArg some (recalls.symbol_eq isShown otherShown)

/-- What a context answers about an outermost type is determined by the owners. -/
theorem Recalls.outermostClass_eq (recalls : cache.Recalls table)
    (isShown : cache.ShowsSymbol symbol binding)
    (noCircle : ¬ table.CirclesWithout .package binding)
    (answerShown : Option.Rel cache.ShowsSymbol answer shown)
    (means : ∀ type, shown = some type ↔ table.IsOutermost binding type) :
    (outermostClass table symbol cache).1 = answer := by
  rcases ensures_outermostClass recalls isShown with ⟨carries, ends⟩
  have stillShown := optionRel_imp (fun _ _ => carries.toKeeps.showsSymbol) answerShown
  revert ends
  generalize (outermostClass table symbol cache).1 = given
  intro ends
  cases ends with
  | circle circles _ => exact absurd circles noCircle
  | @found _ _ found isFound givenShown _ =>
      have same : found = shown :=
        Option.ext fun type => isFound.eq_some_iff.trans (means type).symm
      exact carries.recalls.answer_eq (same ▸ givenShown) stillShown

end Cache

/-! ## Nearest and outermost types -/

namespace Table

variable {table : Table} {binding next type nearest : BindingId} {shown : Option BindingId}

/-- The outermost type of a declaration that is neither type nor package is that of its owner. -/
theorem isOutermost_iff (below : table.OwnsBelow .package binding next)
    (noType : (table.entry binding).kind ≠ .type) :
    table.IsOutermost binding type ↔ table.IsOutermost next type := by
  refine and_congr_left fun _ => ⟨fun around => ?_, fun around => ⟨around.1, around.2.head below⟩⟩
  rcases around.self_or_next below.2 with rfl | further
  · exact absurd around.1 noType
  · exact further

theorem owns_of_below {kind : BindingKind}
    (path : ReflTransGen (table.OwnsBelow kind) binding type) :
    ReflTransGen table.Owns binding type :=
  ReflTransGen.mono (fun _ _ => And.right) _ _ path

/-- Where no package comes before a type there is none on the way to the nearest one. -/
theorem IsNearest.path (isNearest : table.IsNearest binding nearest)
    (noPackage : ¬ table.PackageBeforeType binding) :
    ReflTransGen (table.OwnsBelow .package) binding nearest ∧
      ∀ type, table.IsOutermost binding type ↔ table.IsOutermost nearest type := by
  rcases isNearest with ⟨isType, path⟩
  induction path using ReflTransGen.head_induction_on with
  | refl => exact ⟨.refl, fun _ => Iff.rfl⟩
  | @head binding next below path ih =>
      have owned : ReflTransGen table.Owns next nearest := owns_of_below path
      have notPackage : (table.entry binding).kind ≠ .package := fun isPackage =>
        noPackage ⟨binding, nearest, .refl, isPackage, owned.head below.2, isType⟩
      have further : ¬ table.PackageBeforeType next := by
        rintro ⟨package, type, toPackage, rest⟩
        exact noPackage ⟨package, type, toPackage.head below.2, rest⟩
      rcases ih further with ⟨free, same⟩
      exact ⟨free.head ⟨notPackage, below.2⟩, fun type =>
        (isOutermost_iff ⟨notPackage, below.2⟩ below.1).trans (same type)⟩

/-- Where there is any type on the way outwards there is a nearest one. -/
theorem exists_isNearest (path : ReflTransGen table.Owns binding type)
    (isType : (table.entry type).kind = .type) : ∃ nearest, table.IsNearest binding nearest := by
  induction path using ReflTransGen.head_induction_on with
  | refl => exact ⟨type, isType, .refl⟩
  | @head binding next owns _ ih =>
      by_cases here : (table.entry binding).kind = .type
      · exact ⟨binding, here, .refl⟩
      · rcases ih with ⟨nearest, isNearest, path⟩
        exact ⟨nearest, isNearest, path.head ⟨here, owns⟩⟩

/-- Where no package comes before a type, there is no outermost type only where there is no
nearest one. -/
theorem LastType.eq_none_iff (last : table.LastType none binding shown)
    (noPackage : ¬ table.PackageBeforeType binding) :
    shown = none ↔ ∀ nearest, ¬ table.IsNearest binding nearest := by
  constructor
  · rintro rfl nearest isNearest
    rcases last.outermost_or with ⟨type, isShown, -⟩ | ⟨-, noType⟩
    · cases isShown
    · exact noType nearest ⟨isNearest.1, (isNearest.path noPackage).1⟩
  · intro noNearest
    refine Option.eq_none_iff_forall_ne_some.2 fun type isShown => ?_
    have outermost := last.eq_some_iff.1 isShown
    rcases exists_isNearest (owns_of_below outermost.1.2) outermost.1.1 with ⟨nearest, isNearest⟩
    exact noNearest nearest isNearest

end Table

/-! ## Any owners -/

namespace Cache.Recalls

variable {table : Table} {before cache : Cache} {binding : BindingId} {symbol : SymbolId}
  {answer : Option SymbolId} {shown : Option BindingId}

/-- A type that was answered as an outermost one is its own outermost type. -/
theorem outermost_of_outermost (recalls : cache.Recalls table)
    (answerShown : Option.Rel cache.ShowsSymbol answer shown)
    (last : table.LastType none binding shown) {typeSymbol : SymbolId}
    (isType : answer = some typeSymbol) :
    (outermostClass table typeSymbol cache).1 = some typeSymbol := by
  subst isType
  cases answerShown with
  | @some _ type typeShown =>
      have outermost : table.IsOutermost binding type := last.eq_some_iff.1 rfl
      have isOwn : table.IsOutermost type type := ⟨⟨outermost.1.1, .refl⟩, outermost.2⟩
      have noCircle : ¬ table.CirclesWithout .package type :=
        (Table.circlesWithout_iff_of_path outermost.1.2).not.1 last.not_circling
      refine recalls.outermostClass_eq typeShown noCircle (.some typeShown) fun other => ?_
      rw [Option.some.injEq]
      exact ⟨fun same => same ▸ isOwn, isOwn.unique⟩

/-- Where no package comes before a type, there is a nearest type when there is an outermost one,
and the outermost type around it is the same. -/
theorem outermost_of_nearest (recalls : cache.Recalls table)
    (isShown : cache.ShowsSymbol symbol binding)
    (answerShown : Option.Rel cache.ShowsSymbol answer shown)
    (last : table.LastType none binding shown) (noPackage : ¬ table.PackageBeforeType binding) :
    ((enclosingClass table symbol cache).1 = none ↔ answer = none) ∧
      ∀ type, (enclosingClass table symbol cache).1 = some type → ∀ later,
        Carries table (enclosingClass table symbol cache).2 later →
          (outermostClass table type later).1 = answer := by
  have none_iff : answer = none ↔ ∀ nearest, ¬ table.IsNearest binding nearest := by
    rw [← last.eq_none_iff noPackage]
    cases answerShown <;> simp
  rcases ensures_enclosingClass recalls isShown with ⟨carries, ends⟩
  have stillShown := optionRel_imp (fun _ _ => carries.toKeeps.showsSymbol) answerShown
  revert ends
  generalize (enclosingClass table symbol cache).1 = inner
  intro ends
  cases ends with
  | circle circles _ =>
      have none := none_iff.2 fun type isNearest =>
        circles.2 type (Table.owns_of_below isNearest.2) isNearest.1
      exact ⟨iff_of_true rfl none, nofun⟩
  | @found _ _ nearestShown isFound innerShown _ =>
      cases innerShown with
      | none =>
          have none := none_iff.2 fun type isNearest => by cases isFound.eq_some_iff.2 isNearest
          exact ⟨iff_of_true rfl none, nofun⟩
      | @some inner nearest innerShown =>
          have isNearest := isFound.eq_some_iff.1 rfl
          rcases isNearest.path noPackage with ⟨free, same⟩
          have present : answer ≠ none := fun none => none_iff.1 none nearest isNearest
          refine ⟨iff_of_false nofun present, fun type isInner later carriesOn => ?_⟩
          obtain rfl := Option.some.inj isInner
          exact carriesOn.recalls.outermostClass_eq (carriesOn.toKeeps.showsSymbol innerShown)
            ((Table.circlesWithout_iff_of_path free).not.1 last.not_circling)
            (optionRel_imp (fun _ _ => carriesOn.toKeeps.showsSymbol) stillShown)
            fun type => last.eq_some_iff.trans (same type)

end Cache.Recalls

namespace Use

variable {table : Table}

/-- Whatever a context is used for, it goes on recalling. -/
theorem carries_after {before : Cache} (recalls : before.Recalls table) (uses : List Use) :
    Carries table before (after table before uses) :=
  recalls.moves (moves_after uses)

/-- On every table, the walks outwards from a symbol end within as many turns as there are bindings
and two more. While a context has reported nothing, the nearest type is the first one on the way
outwards and the outermost type the last one before a package, and what is reported is that the
owners run in a circle without a type or without a package. An outermost type that was answered
without a report is answered ever after, for the symbol, for the type itself, and for the nearest
type where no package comes before a type. -/
theorem any_owners (uses : List Use) {symbol : SymbolId}
    (inside : symbol.index < (after table {} uses).symbols.size)
    (noFault : (after table {} uses).fault = none) :
    let before := after table {} uses
    let binding := (before.symbol symbol).binding
    let nearest := enclosingClass table symbol before
    let outermost := outermostClass table symbol before
    (∀ turns, table.size + 2 ≤ turns → ∀ beyond beyondLast,
      enclosingWithin table beyond symbol turns symbol [] before = nearest ∧
        outermostClassWithin table beyondLast turns symbol before = outermost) ∧
    Finds table .type (table.IsNearest binding) binding nearest.1 nearest.2 ∧
    Finds table .package (table.IsOutermost binding) binding outermost.1 outermost.2 ∧
    (outermost.2.fault = none → ∀ later,
      let middle := after table outermost.2 later
      (outermostClass table symbol middle).1 = outermost.1 ∧
      (∀ type, outermost.1 = some type → (outermostClass table type middle).1 = some type) ∧
      (¬ table.PackageBeforeType binding →
        let inner := enclosingClass table symbol middle
        (inner.1 = none ↔ outermost.1 = none) ∧
        ∀ type, inner.1 = some type → ∀ more,
          (outermostClass table type (after table inner.2 more)).1 = outermost.1)) := by
  intro before binding nearest outermost
  have recalls : before.Recalls table := (carries_after .empty uses).recalls
  have isShown : before.ShowsSymbol symbol binding := ⟨inside, rfl⟩
  have nearestEnds := ensures_enclosingClass recalls isShown
  have outermostEnds := ensures_outermostClass recalls isShown
  refine ⟨fun turns enough beyond beyondLast => ⟨enclosingClass_loop recalls inside enough,
    outermostClass_loop recalls inside enough⟩, ?_, ?_, ?_⟩
  · exact nearestEnds.2.answers noFault (fun _ first => first.not_circling)
      fun _ _ first => first.eq_some_iff
  · exact outermostEnds.2.answers noFault (fun _ last => last.not_circling)
      fun _ _ last => last.eq_some_iff
  · intro noReport later middle
    rcases outermostEnds with ⟨carries, ends⟩
    have carriesOn := carries_after carries.recalls later
    have stillShown := carriesOn.toKeeps.showsSymbol (carries.toKeeps.showsSymbol isShown)
    rcases ends.of_noFault noReport with ⟨shown, last, answerShown⟩
    have answerStays := optionRel_imp (fun _ _ => carriesOn.toKeeps.showsSymbol) answerShown
    have recallsOn := carriesOn.recalls
    refine ⟨recallsOn.outermostClass_eq stillShown last.not_circling answerStays
      fun _ => last.eq_some_iff, fun type => recallsOn.outermost_of_outermost answerStays last,
      fun noPackage => ?_⟩
    have ofNearest := recallsOn.outermost_of_nearest stillShown answerStays last noPackage
    refine ⟨ofNearest.1, fun type isInner more => ?_⟩
    have recallsInner := (ensures_enclosingClass recallsOn stillShown).1.recalls
    exact ofNearest.2 type isInner _ (carries_after recallsInner more)

/-- A method of a nested class, and beside them a method and a class that own each other. -/
def knotted : Table :=
  { entries := #[{ kind := .package, name := "p" },
      { kind := .type, name := "Outer", owner := some ⟨0⟩ },
      { kind := .type, name := "Inner", owner := some ⟨1⟩ },
      { kind := .method, name := "m", owner := some ⟨2⟩ },
      { kind := .method, name := "f", owner := some ⟨5⟩ },
      { kind := .type, name := "Knot", owner := some ⟨4⟩ }] }

/-- A circle has been reported and the fault taken out before the symbols are asked. -/
theorem any_owners_knotted :
    let before := after knotted {} [.ask (.outermostClass ⟨4⟩), .takeFault, .ask (.symbol ⟨3⟩)]
    let outermost := outermostClass knotted ⟨2⟩ before
    (1 < before.symbols.size ∧ 2 < before.symbols.size ∧ before.fault = none) ∧
    Finds knotted .type (knotted.IsNearest ⟨5⟩) ⟨5⟩ (enclosingClass knotted ⟨1⟩ before).1
      (enclosingClass knotted ⟨1⟩ before).2 ∧
    (outermostClass knotted ⟨1⟩ before).2.fault = some (.ownerCycle ⟨5⟩ "Knot") ∧
    (outermost.1 = some ⟨4⟩ ∧ outermost.2.fault = none) ∧
    ∀ later, (outermostClass knotted ⟨2⟩ (after knotted outermost.2 later)).1 = some ⟨4⟩ ∧
      (outermostClass knotted ⟨4⟩ (after knotted outermost.2 later)).1 = some ⟨4⟩ := by
  intro before outermost
  have evaluated : (1 < before.symbols.size ∧ 2 < before.symbols.size ∧ before.fault = none) ∧
      (before.symbol ⟨1⟩).binding = ⟨5⟩ ∧
      (outermostClass knotted ⟨1⟩ before).2.fault = some (.ownerCycle ⟨5⟩ "Knot") ∧
      (outermost.1 = some ⟨4⟩ ∧ outermost.2.fault = none) := by decide +kernel
  rcases evaluated with ⟨known, isKnot, reported, found⟩
  have onKnot := any_owners _ known.1 known.2.2
  have onMethod := any_owners _ known.2.1 known.2.2
  rcases onKnot with ⟨-, nearest, -, -⟩
  rcases onMethod with ⟨-, -, -, stays⟩
  refine ⟨known, isKnot ▸ nearest, reported, found, fun later => ?_⟩
  rcases stays found.2 later with ⟨same, own, -⟩
  exact ⟨same.trans found.1, own ⟨4⟩ found.1⟩

end Use

end JavaInspect
