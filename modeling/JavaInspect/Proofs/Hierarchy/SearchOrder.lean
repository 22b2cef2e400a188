import JavaInspect.Proofs.Binding.Links
import JavaInspect.Proofs.Semantics.Circles
import JavaInspect.Proofs.Semantics.Inheritance
import Mathlib.Order.Lattice.Nat

/-!
# The order of a search

A search for an inherited member goes through a queue of types, one turn for each. The queue may
hold a type several times, and it grows while it is worked off. Two invariants of the turns say
all about the order of the types that are visited: the queue is first in, first out, and it never
holds types of more than two neighbouring distances from the start.
-/

namespace JavaInspect

open Relation

namespace Table

/-- Where a search stands: the types that it has visited in order, and those that it has yet to
look at. -/
structure Search where
  visited : List BindingId
  queue : List BindingId

section Definitions

variable (table : Table)

/-- One turn of a search takes the first type of the queue. A type that was visited before is
passed over; any other is visited, and the types directly above it join the queue. -/
inductive Search.Turn : Search → Search → Prop where
  | pass {visited queue : List BindingId} {current : BindingId} (stale : current ∈ visited) :
      Turn ⟨visited, current :: queue⟩ ⟨visited, queue⟩
  | visit {visited queue : List BindingId} {current : BindingId} (fresh : current ∉ visited) :
      Turn ⟨visited, current :: queue⟩ ⟨visited ++ [current], queue ++ table.parents current⟩

/-- A path of the given number of links from a type up to another. -/
def LeadsIn : Nat → BindingId → BindingId → Prop
  | 0, lower, upper => lower = upper
  | links + 1, lower, upper => ∃ middle, LeadsIn links lower middle ∧ upper ∈ table.parents middle

/-- The length of the shortest path of links from a type up to another. -/
noncomputable def distance (lower upper : BindingId) : Nat :=
  sInf { links | table.LeadsIn links lower upper }

end Definitions

variable {table : Table} {start type upper : BindingId} {links depth : Nat}
  {visited now next queue unvisited : List BindingId} {before after : Search}

/-! ## Distances -/

theorem reaches_iff_leadsIn :
    table.Reaches start type ↔ ∃ links, table.LeadsIn links start type := by
  constructor
  · intro reaches
    induction reaches with
    | refl => exact ⟨0, rfl⟩
    | tail _ isParent ih =>
        rcases ih with ⟨links, leads⟩
        exact ⟨links + 1, _, leads, isParent⟩
  · intro leads
    rcases leads with ⟨links, leads⟩
    induction links generalizing type with
    | zero => exact leads ▸ .refl
    | succ links ih =>
        rcases leads with ⟨middle, leads, isParent⟩
        exact .tail (ih leads) isParent

theorem distance_le (leads : table.LeadsIn links start type) : table.distance start type ≤ links :=
  Nat.sInf_le leads

theorem leadsIn_distance (reaches : table.Reaches start type) :
    table.LeadsIn (table.distance start type) start type :=
  Nat.sInf_mem (reaches_iff_leadsIn.1 reaches)

/-! ## First in, first out -/

/-- What was taken from the queue and what is still in it are, in this order, the start and the
types directly above the visited ones; the visited types are the first occurrences among those
that were taken. -/
def Search.InOrder (table : Table) (start : BindingId) (search : Search) : Prop :=
  ∃ taken, start :: search.visited.flatMap table.parents = taken ++ search.queue ∧
    taken.eraseDups = search.visited

theorem Search.Turn.inOrder (turn : Search.Turn table before after)
    (inOrder : before.InOrder table start) : after.InOrder table start := by
  rcases inOrder with ⟨taken, links, firsts⟩
  cases turn with
  | @pass visited queue current stale =>
      refine ⟨taken ++ [current], by simpa using links, ?_⟩
      have old : current ∈ taken := List.mem_eraseDups.1 (by rwa [firsts])
      rw [eraseDups_concat, if_pos old, firsts]
  | @visit visited queue current fresh =>
      refine ⟨taken ++ [current], ?_, ?_⟩
      · simp only [List.flatMap_append, List.flatMap_singleton, ← List.cons_append]
        simp [links]
      · have isNew : current ∉ taken := by rwa [← List.mem_eraseDups, firsts]
        rw [eraseDups_concat, if_neg isNew, firsts]

theorem Search.InOrder.run (inOrder : before.InOrder table start)
    (run : ReflTransGen (Search.Turn table) before after) : after.InOrder table start := by
  induction run with
  | refl => exact inOrder
  | tail _ turn ih => exact turn.inOrder ih

/-! ## Level by level -/

/-- A search at some depth: all types fewer links away from the start are visited, those at the
depth are visited or among the first in the queue, and the others in the queue are one link
further away. -/
structure Search.Frontier (table : Table) (start : BindingId) (depth : Nat)
    (visited now next : List BindingId) : Prop where
  near : ∀ type ∈ visited, table.distance start type ≤ depth
  atDepth : ∀ type ∈ now, table.LeadsIn depth start type
  oneFurther : ∀ type ∈ next, table.LeadsIn (depth + 1) start type
  closed : ∀ type ∈ visited, ∀ upper ∈ table.parents type,
    upper ∈ visited ∨ upper ∈ now ∨ upper ∈ next
  below : ∀ links < depth, ∀ type, table.LeadsIn links start type → type ∈ visited
  level : ∀ type, table.LeadsIn depth start type → type ∈ visited ∨ type ∈ now
  sorted : visited.Pairwise fun earlier later =>
    table.distance start earlier ≤ table.distance start later

namespace Search.Frontier

theorem begin : Frontier table start 0 [] [start] [] where
  near := by simp
  atDepth := by simp [LeadsIn]
  oneFurther := by simp
  closed := by simp
  below := by simp
  level := by simp [LeadsIn, eq_comm]
  sorted := .nil

/-- When no type of a level is left in the queue, the next level begins. -/
theorem deeper (frontier : Frontier table start depth visited [] next) :
    Frontier table start (depth + 1) visited next [] where
  near type isVisited := Nat.le_succ_of_le (frontier.near type isVisited)
  atDepth := frontier.oneFurther
  oneFurther := by simp
  closed type isVisited upper isParent := by
    simpa using frontier.closed type isVisited upper isParent
  below links fewer type leads := by
    rcases Nat.lt_succ_iff_lt_or_eq.1 fewer with fewer | rfl
    · exact frontier.below links fewer type leads
    · simpa using frontier.level type leads
  level type leads := by
    rcases leads with ⟨middle, leads, isParent⟩
    have isVisited : middle ∈ visited := by simpa using frontier.level middle leads
    simpa using frontier.closed middle isVisited type isParent
  sorted := frontier.sorted

theorem pass (frontier : Frontier table start depth visited (type :: now) next)
    (stale : type ∈ visited) : Frontier table start depth visited now next where
  near := frontier.near
  atDepth other isNow := frontier.atDepth other (List.mem_cons_of_mem _ isNow)
  oneFurther := frontier.oneFurther
  closed lower isVisited upper isParent := by
    rcases frontier.closed lower isVisited upper isParent with old | isNow | isNext
    · exact .inl old
    · rcases List.mem_cons.1 isNow with rfl | isNow
      · exact .inl stale
      · exact .inr (.inl isNow)
    · exact .inr (.inr isNext)
  below := frontier.below
  level other leads := by
    rcases frontier.level other leads with old | isNow
    · exact .inl old
    · rcases List.mem_cons.1 isNow with rfl | isNow
      · exact .inl stale
      · exact .inr isNow
  sorted := frontier.sorted

theorem visit (frontier : Frontier table start depth visited (type :: now) next)
    (fresh : type ∉ visited) :
    Frontier table start depth (visited ++ [type]) now (next ++ table.parents type) := by
  have leads : table.LeadsIn depth start type := frontier.atDepth type List.mem_cons_self
  -- A shorter path would have had the type visited at an earlier level.
  have isDistance : table.distance start type = depth := by
    refine Nat.le_antisymm (distance_le leads) (Nat.not_lt.1 fun fewer => fresh ?_)
    exact frontier.below _ fewer type
      (leadsIn_distance (reaches_iff_leadsIn.2 ⟨depth, leads⟩))
  constructor
  case near => simpa [or_imp, forall_and, isDistance] using frontier.near
  case atDepth => exact fun other isNow => frontier.atDepth other (List.mem_cons_of_mem _ isNow)
  case oneFurther =>
    intro other isNext
    rcases List.mem_append.1 isNext with isNext | isParent
    · exact frontier.oneFurther other isNext
    · exact ⟨type, leads, isParent⟩
  case closed =>
    intro lower isVisited upper isParent
    rcases List.mem_append.1 isVisited with old | isNew
    · have found := frontier.closed lower old upper isParent
      simp only [List.mem_cons, List.mem_append] at found ⊢
      tauto
    · obtain rfl := List.mem_singleton.1 isNew
      simp [isParent]
  case below =>
    exact fun links fewer other leads =>
      List.mem_append_left _ (frontier.below links fewer other leads)
  case level =>
    intro other leads
    have found := frontier.level other leads
    simp only [List.mem_cons, List.mem_append] at found ⊢
    tauto
  case sorted =>
    rw [List.pairwise_append]
    refine ⟨frontier.sorted, List.pairwise_singleton _ _, fun earlier isEarlier later isLater => ?_⟩
    obtain rfl := List.mem_singleton.1 isLater
    exact isDistance ▸ frontier.near earlier isEarlier

end Search.Frontier

/-- A search whose queue holds one level and what is known of the next. -/
def Search.Levelled (table : Table) (start : BindingId) (search : Search) : Prop :=
  ∃ depth now next, search.queue = now ++ next ∧
    Search.Frontier table start depth search.visited now next

/-- A search with a type in its queue has one of the level that it is at, or goes up to the next
level. -/
theorem Search.Levelled.exists_now
    (levelled : Search.Levelled table start ⟨visited, type :: queue⟩) :
    ∃ depth now next, queue = now ++ next ∧
      Search.Frontier table start depth visited (type :: now) next := by
  rcases levelled with ⟨depth, _ | ⟨first, now⟩, next, isQueue, frontier⟩
  · obtain rfl : type :: queue = next := isQueue
    exact ⟨depth + 1, queue, [], by simp, frontier.deeper⟩
  · obtain ⟨rfl, rfl⟩ := List.cons.inj isQueue
    exact ⟨depth, now, next, rfl, frontier⟩

theorem Search.Turn.levelled (turn : Search.Turn table before after)
    (levelled : before.Levelled table start) : after.Levelled table start := by
  cases turn with
  | pass stale =>
      rcases levelled.exists_now with ⟨depth, now, next, isQueue, frontier⟩
      exact ⟨depth, now, next, isQueue, frontier.pass stale⟩
  | visit fresh =>
      rcases levelled.exists_now with ⟨depth, now, next, rfl, frontier⟩
      exact ⟨depth, now, _, List.append_assoc _ _ _, frontier.visit fresh⟩

theorem Search.Levelled.run (levelled : before.Levelled table start)
    (run : ReflTransGen (Search.Turn table) before after) : after.Levelled table start := by
  induction run with
  | refl => exact levelled
  | tail _ turn ih => exact turn.levelled ih

/-! ## The end of a search -/

theorem Search.Turn.unique {other : Search} (turn : Search.Turn table before after)
    (turn' : Search.Turn table before other) : after = other := by
  cases turn with
  | pass stale =>
      cases turn' with
      | pass => rfl
      | visit fresh => exact absurd stale fresh
  | visit fresh =>
      cases turn' with
      | pass stale => exact absurd stale fresh
      | visit => rfl

/-- A search that has come to an empty queue could not have gone on for ever. -/
theorem Search.grounded_of_run
    (run : ReflTransGen (Search.Turn table) before ⟨visited, []⟩) :
    Grounded (Search.Turn table) before := by
  induction run using ReflTransGen.head_induction_on with
  | refl => exact .of_next nofun
  | head turn _ ih => exact .of_next fun _ turn' => turn.unique turn' ▸ ih

/-- The turns of a search visit just what is computed, and end. -/
theorem run_searchFrom (inside : table.LinksInside) (distinct : unvisited.Nodup)
    (unseen : ∀ type, type ∈ unvisited ↔ type.index < table.size ∧ type ∉ visited)
    (queued : ∀ type ∈ queue, type.index < table.size) :
    ReflTransGen (Search.Turn table) ⟨visited, queue⟩
      ⟨visited ++ table.searchFrom unvisited queue, []⟩ := by
  fun_induction searchFrom table unvisited queue generalizing visited with
  | case1 unvisited => simpa using ReflTransGen.refl
  | case2 unvisited current queue fresh ih =>
      have unseenNow : ∀ type, type ∈ unvisited.erase current ↔
          type.index < table.size ∧ type ∉ visited ++ [current] := by
        intro type
        rw [distinct.mem_erase_iff, unseen]
        simp only [List.mem_append, List.mem_singleton]
        tauto
      have queuedNow : ∀ type ∈ queue ++ table.parents current, type.index < table.size := by
        intro type isQueued
        rcases List.mem_append.1 isQueued with isQueued | isParent
        · exact queued type (List.mem_cons_of_mem _ isQueued)
        · exact inside current type isParent
      have visit := ih (distinct.erase current) unseenNow queuedNow
      refine .head (.visit ((unseen current).1 fresh).2) ?_
      simpa using visit
  | case3 unvisited current queue stale ih =>
      have isVisited : current ∈ visited := by
        by_contra unseenYet
        exact stale ((unseen current).2 ⟨queued current List.mem_cons_self, unseenYet⟩)
      refine .head (.pass isVisited) (ih distinct unseen ?_)
      exact fun type isQueued => queued type (List.mem_cons_of_mem _ isQueued)

theorem run_hierarchy (inside : table.LinksInside) (inTable : start.index < table.size) :
    ReflTransGen (Search.Turn table) ⟨[], [start]⟩ ⟨table.hierarchy start, []⟩ :=
  run_searchFrom inside table.nodup_bindings (by simp) (by simpa using inTable)

/-- What comes first among some items comes first among their first occurrences. -/
theorem sublist_eraseDups {Item : Type} [DecidableEq Item] {items rest : List Item}
    {earlier later : Item} (isEarlier : earlier ∈ items) (isNew : later ∉ items) :
    [earlier, later].Sublist (items ++ later :: rest).eraseDups := by
  have onward : (later :: rest).removeAll items = later :: rest.removeAll items := by
    simp [List.removeAll, isNew]
  rw [List.eraseDups_append, onward, List.eraseDups_cons]
  have isFirst : [earlier].Sublist items.eraseDups := by simpa using isEarlier
  exact isFirst.append (List.singleton_sublist.2 List.mem_cons_self)

/-- How a search of a type goes. -/
structure SearchesBreadthFirst (table : Table) (type : BindingId) (order : List BindingId) :
    Prop where
  /-- Its turns end, -/
  ends : Grounded (Search.Turn table) ⟨[], [type]⟩
  /-- and then it has visited the types in this order. -/
  run : ReflTransGen (Search.Turn table) ⟨[], [type]⟩ ⟨order, []⟩
  first : order.head? = some type
  /-- It visits what links lead to, -/
  visits : ∀ upper, upper ∈ order ↔ table.Reaches type upper
  /-- each type once -/
  once : order.Nodup
  /-- and the nearest first. -/
  nearestFirst : (order.map (table.distance type)).Pairwise (· ≤ ·)
  /-- Types come in the order in which the visited ones link to them, from the superclass to the
  last interface. -/
  inLinkOrder : order = (type :: order.flatMap table.parents).eraseDups
  /-- So the types that one type links to come in the order of its links, the superclass before the
  interfaces and these as they are declared, unless a type is linked to from further ahead. -/
  superclassFirst : ∀ before lower after, order = before ++ lower :: after →
    ∀ earlier upper later, table.parents lower = earlier ++ upper :: later →
      upper ∉ type :: before.flatMap table.parents ++ earlier →
        ∀ other ∈ earlier, [other, upper].Sublist order

/-- The search of a type of a table is breadth first. -/
theorem searchesBreadthFirst (inside : table.LinksInside) (inTable : type.index < table.size) :
    table.SearchesBreadthFirst type (table.hierarchy type) := by
  have run := run_hierarchy inside inTable
  have inOrder : (⟨table.hierarchy type, []⟩ : Search).InOrder table type :=
    .run ⟨[], rfl, rfl⟩ run
  rcases inOrder with ⟨taken, links, firsts⟩
  replace links : type :: (table.hierarchy type).flatMap table.parents = taken := by
    simpa using links
  have inLinkOrder : table.hierarchy type =
      (type :: (table.hierarchy type).flatMap table.parents).eraseDups := by rw [links, firsts]
  constructor
  case ends => exact Search.grounded_of_run run
  case run => exact run
  case first =>
    rw [inLinkOrder, List.eraseDups_cons]
    rfl
  case visits =>
    intro upper
    refine ⟨reaches_of_mem_hierarchy, fun reaches => mem_hierarchy_of_reaches reaches ?_⟩
    rcases ReflTransGen.cases_tail reaches with rfl | ⟨lower, -, isParent⟩
    · exact inTable
    · exact inside lower upper isParent
  case once =>
    rw [inLinkOrder]
    exact nodup_eraseDups
  case nearestFirst =>
    have levelled : (⟨table.hierarchy type, []⟩ : Search).Levelled table type :=
      .run ⟨0, [type], [], rfl, .begin⟩ run
    rcases levelled with ⟨_, _, _, -, frontier⟩
    exact List.pairwise_map.2 frontier.sorted
  case inLinkOrder => exact inLinkOrder
  case superclassFirst =>
    intro before lower after isOrder earlier upper later isParents isNew other isEarlier
    have isLinks : type :: (table.hierarchy type).flatMap table.parents =
        (type :: before.flatMap table.parents ++ earlier) ++
          upper :: (later ++ after.flatMap table.parents) := by
      simp [isOrder, isParents]
    rw [inLinkOrder, isLinks]
    exact sublist_eraseDups (List.mem_append_right _ isEarlier) isNew

/-! ## What a search finds -/

/-- A wanted member that the earliest type declares which declares one at all, the first of those
that are wanted in the order of its members. -/
def NearestMember (table : Table) (wanted : Entry → Prop) (order : List BindingId)
    (member : BindingId) : Prop :=
  ∃ before upper after, order = before ++ upper :: after ∧
    (∀ lower ∈ before, ¬ table.Declares wanted lower) ∧
    ∃ earlier later, (table.entry upper).members = earlier ++ member :: later ∧
      wanted (table.entry member) ∧ ∀ other ∈ earlier, ¬ wanted (table.entry other)

/-- A lookup that answers the nearest member in some order of types, and nothing just when no type
that links lead to declares what is wanted. -/
structure FindsNearest (table : Table) (wanted : Entry → Prop) (type : BindingId)
    (order : List BindingId) (answer : Option BindingId) : Prop where
  some_iff : ∀ member, answer = some member ↔ table.NearestMember wanted order member
  none_iff : answer = none ↔ ∀ upper, table.Reaches type upper → ¬ table.Declares wanted upper

variable {wanted : Entry → Prop} {accepts : BindingId → Bool} {order : List BindingId}

theorem find?_members_eq_none_iff
    (decides : ∀ member, accepts member = true ↔ wanted (table.entry member)) :
    (table.entry type).members.find? accepts = none ↔ ¬ table.Declares wanted type := by
  simp [Declares, decides]

theorem findsNearest (breadthFirst : table.SearchesBreadthFirst type order)
    (decides : ∀ member, accepts member = true ↔ wanted (table.entry member)) :
    table.FindsNearest wanted type order
      (order.findSome? fun upper => (table.entry upper).members.find? accepts) where
  some_iff member := by
    have refuses (other : BindingId) : accepts other = false ↔ ¬ wanted (table.entry other) := by
      simp [← decides]
    simp only [List.findSome?_eq_some_iff, List.find?_eq_some_iff_append, Bool.not_eq_true',
      find?_members_eq_none_iff decides, decides, refuses]
    constructor
    · rintro ⟨before, upper, after, isOrder, ⟨isWanted, earlier, later, isMembers, others⟩, lower⟩
      exact ⟨before, upper, after, isOrder, lower, earlier, later, isMembers, isWanted, others⟩
    · rintro ⟨before, upper, after, isOrder, lower, earlier, later, isMembers, isWanted, others⟩
      exact ⟨before, upper, after, isOrder, ⟨isWanted, earlier, later, isMembers, others⟩, lower⟩
  none_iff := by
    simp only [List.findSome?_eq_none_iff, find?_members_eq_none_iff decides, breadthFirst.visits]

/-- Lookups of members search a type and all that links lead to, breadth first, and find the
nearest member that is wanted. A method with a variable last parameter takes any number of
arguments from one less than its parameters on, every other just as many as its parameters. -/
theorem lookups_breadthFirst (inside : table.LinksInside) (inTable : type.index < table.size) :
    table.SearchesBreadthFirst type (table.hierarchy type) ∧
    (∀ name arity, table.FindsNearest (Entry.IsMethodFor name arity) type (table.hierarchy type)
      (table.findMethod type name arity)) ∧
    (∀ name, table.FindsNearest (Entry.IsFieldNamed name) type (table.hierarchy type)
      (table.findField type name)) ∧
    ∀ (entry : Entry) arity, entry.accepts arity ↔ entry.parameters.length = arity ∨
      (entry.varargs ∧ 0 < entry.parameters.length ∧ entry.parameters.length - 1 ≤ arity) := by
  have breadthFirst := searchesBreadthFirst inside inTable
  refine ⟨breadthFirst, fun name arity => ?_, fun name => ?_, fun entry arity => ?_⟩
  · exact findsNearest breadthFirst fun member => by simp [Entry.IsMethodFor, and_assoc]
  · exact findsNearest breadthFirst fun member => by simp [Entry.IsFieldNamed]
  · simp [Entry.accepts, and_assoc]

/-- A ferry and a barge that inherit from each other, below an interface that extends itself. -/
def circling : Table := build
  [ .declareType "Ferry" .class,
    .declareType "Barge" .class,
    .declareType "Moored" .interface,
    .primitive "int",
    .setSuperclass ⟨0⟩ ⟨1⟩,
    .setSuperclass ⟨1⟩ ⟨0⟩,
    .addInterface ⟨0⟩ ⟨2⟩,
    .addInterface ⟨1⟩ ⟨2⟩,
    .addInterface ⟨2⟩ ⟨2⟩,
    .declareMethod ⟨2⟩ "moor" [⟨3⟩, ⟨3⟩] none,
    .setVarargs ⟨4⟩ true ]

set_option maxRecDepth 4000 in
theorem lookups_breadthFirst_circling :
    (circling.LinksInside ∧ (⟨0⟩ : BindingId).index < circling.size) ∧
    circling.SearchesBreadthFirst ⟨0⟩ (circling.hierarchy ⟨0⟩) ∧
    circling.findMethod ⟨0⟩ "moor" 7 ≠ none ∧ circling.findMethod ⟨0⟩ "moor" 0 = none ∧
    circling.findField ⟨0⟩ "moor" = none := by
  have assembled : circling.Assembled := assembled_build (by decide)
  have inTable : (⟨0⟩ : BindingId).index < circling.size := by decide
  rcases lookups_breadthFirst assembled.linksInside inTable with
    ⟨breadthFirst, methods, fields, -⟩
  refine ⟨⟨assembled.linksInside, inTable⟩, breadthFirst, ?_, ?_, ?_⟩
  · intro isNone
    have toBarge : circling.Reaches ⟨0⟩ ⟨1⟩ := .single (by decide)
    exact (methods "moor" 7).none_iff.1 isNone ⟨2⟩ (toBarge.tail (by decide)) (by decide)
  · refine (methods "moor" 0).none_iff.2 fun upper _ declares => ?_
    have nowhere : ∀ upper ∈ circling.bindings,
        ¬ circling.Declares (Entry.IsMethodFor "moor" 0) upper := by decide
    exact nowhere upper (mem_bindings.2 declares.inTable) declares
  · refine (fields "moor").none_iff.2 fun upper _ declares => ?_
    have nowhere : ∀ upper ∈ circling.bindings,
        ¬ circling.Declares (Entry.IsFieldNamed "moor") upper := by decide
    exact nowhere upper (mem_bindings.2 declares.inTable) declares

end Table

end JavaInspect
