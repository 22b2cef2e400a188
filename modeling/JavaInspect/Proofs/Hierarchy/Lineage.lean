import JavaInspect.Proofs.Binding.Grounded
import JavaInspect.Semantics.Supertypes
import Mathlib.Data.List.Forall2
import Mathlib.Data.List.Nodup

/-!
# Lineages

The lineage of a type is the plain recursion behind its supertypes: the known
types directly above it, each followed by its own lineage, every type once and
the root of the reference types last. No facade, memo or mark takes part in it.
-/

namespace JavaInspect

open Relation

/-! ## First occurrences -/

section FirstOccurrences

variable {Item : Type} [DecidableEq Item] {items : List Item} {item : Item}

/-- A further item keeps its place only when it is new. -/
theorem eraseDups_concat : (items ++ [item]).eraseDups =
    if item ∈ items then items.eraseDups else items.eraseDups ++ [item] := by
  rw [List.eraseDups_append]
  by_cases old : item ∈ items
  · simp [old, List.removeAll]
  · simp [old, List.removeAll, List.eraseDups_cons]

theorem nodup_eraseDups : items.eraseDups.Nodup := by
  induction items using List.reverseRecOn with
  | nil => simp
  | append_singleton items item ih =>
      rw [eraseDups_concat]
      split
      case isTrue => exact ih
      case isFalse new =>
        rw [List.nodup_append]
        refine ⟨ih, List.nodup_singleton item, ?_⟩
        intro earlier member later isItem same
        rw [List.mem_singleton] at isItem
        rw [same, isItem] at member
        exact new (List.mem_eraseDups.1 member)

theorem eraseDups_of_nodup (distinct : items.Nodup) : items.eraseDups = items := by
  induction items using List.reverseRecOn with
  | nil => rfl
  | append_singleton items item ih =>
      obtain ⟨itemsDistinct, -, apart⟩ := List.nodup_append.1 distinct
      have isNew : item ∉ items := fun old => apart item old item List.mem_cons_self rfl
      rw [eraseDups_concat, if_neg isNew, ih itemsDistinct]

theorem filter_eraseDups {keep : Item → Bool} :
    items.eraseDups.filter keep = (items.filter keep).eraseDups := by
  induction items using List.reverseRecOn with
  | nil => simp
  | append_singleton items item ih =>
      rw [eraseDups_concat, List.filter_append]
      cases kept : keep item with
      | true =>
          simp only [List.filter_singleton, kept, cond_true, eraseDups_concat, List.mem_filter,
            and_true]
          split
          · exact ih
          · simp [kept, ih]
      | false =>
          simp only [List.filter_singleton, kept, cond_false, List.append_nil]
          split
          · exact ih
          · simp [kept, ih]

theorem eraseDups_of_allEqual (allEqual : ∀ left ∈ items, ∀ right ∈ items, left = right) :
    items.eraseDups = items.getLast?.toList := by
  induction items using List.reverseRecOn with
  | nil => simp
  | append_singleton items item ih =>
      rw [eraseDups_concat, List.getLast?_concat]
      split
      case isTrue old =>
        have earlierEqual : ∀ left ∈ items, ∀ right ∈ items, left = right := by
          intro left isLeft right isRight
          exact allEqual left (by simp [isLeft]) right (by simp [isRight])
        cases last : items.getLast? with
        | none => simp_all
        | some earlier =>
            have same := earlierEqual earlier (List.mem_of_getLast? last) item old
            rw [ih earlierEqual, last, same]
      case isFalse new =>
        cases items with
        | nil => rfl
        | cons first rest =>
            have same := allEqual first (by simp) item (by simp)
            exact absurd (same ▸ List.mem_cons_self) new

/-- Lists that correspond item by item have corresponding first occurrences. -/
theorem rel_eraseDups {Other : Type} [DecidableEq Other] {related : Item → Other → Prop}
    (unique : Relator.BiUnique related) {others : List Other}
    (correspond : List.Forall₂ related items others) :
    List.Forall₂ related items.eraseDups others.eraseDups := by
  induction others using List.reverseRecOn generalizing items with
  | nil =>
      obtain rfl := List.forall₂_nil_right_iff.1 correspond
      exact .nil
  | append_singleton others other ih =>
      have start := List.forall₂_take_append items others [other] correspond
      have finish := List.forall₂_drop_append items others [other] correspond
      rcases List.forall₂_cons_right_iff.1 finish with ⟨last, _, isLast, isRest, isDrop⟩
      obtain rfl := List.forall₂_nil_right_iff.1 isRest
      rw [← List.take_append_drop others.length items, isDrop, eraseDups_concat, eraseDups_concat]
      have sameMember := List.rel_mem unique isLast start
      by_cases old : other ∈ others
      · rw [if_pos old, if_pos (sameMember.2 old)]
        exact ih start
      · rw [if_neg old, if_neg (old ∘ sameMember.1)]
        exact List.rel_append (ih start) (.cons isLast .nil)

end FirstOccurrences

namespace Table

/-! ## Definitions -/

section Definitions

variable (table : Table)

/-- Whether a binding has a type facade of its own. -/
def isKnown (binding : BindingId) : Bool :=
  (table.facadeKind? binding).isSome

/-- Whether a binding is named like the root of the reference types. -/
def isRoot (binding : BindingId) : Bool :=
  (table.entry binding).qualifiedName == rootTypeName

/-- The known types among the superclass and the interfaces that the supertypes of a
type are gathered from. -/
def linearParents (binding : BindingId) : List BindingId :=
  if (table.entry binding).recovered then []
  else
    ((table.linearSuperclass? binding).toList ++ (table.entry binding).interfaces).filter
      table.isKnown

/-- The second type is directly above the first one. -/
def Above (lower upper : BindingId) : Prop :=
  upper ∈ table.linearParents lower

instance (lower upper : BindingId) : Decidable (table.Above lower upper) :=
  inferInstanceAs (Decidable (upper ∈ table.linearParents lower))

/-- A supertype cycle that is reached from a binding and reported by one on it. -/
def CycleAbove (binding : BindingId) (fault : SemanticFault) : Prop :=
  ∃ cyclic, fault = .supertypeCycle cyclic (table.entry cyclic).name ∧
    ReflTransGen table.Above binding cyclic ∧ TransGen table.Above cyclic cyclic

/-- The root of the reference types above an array, when it resolves. -/
def arrayRoot (binding : BindingId) : List BindingId :=
  if table.kindOf binding == .array then
    (table.resolveType rootTypeName).toList.filter table.isKnown
  else []

/-- A known type and what is above it. -/
def withLineage (lineageOf : BindingId → List BindingId) (binding : BindingId) :
    List BindingId :=
  if table.isKnown binding then binding :: lineageOf binding else []

/-- All that is above a type in the order in which it is met: nothing for a recovered
type. -/
def gathered (lineageOf : BindingId → List BindingId) (binding : BindingId) : List BindingId :=
  if (table.entry binding).recovered then []
  else
    (table.linearSuperclass? binding).toList.flatMap (table.withLineage lineageOf) ++
      table.arrayRoot binding ++
      (table.entry binding).interfaces.flatMap (table.withLineage lineageOf)

/-- The first occurrences of the types in order; of those that are named like the root
only the last one, at the end. -/
def arranged (types : List BindingId) : List BindingId :=
  (types.filter (!table.isRoot ·)).eraseDups ++ (types.filter table.isRoot).getLast?.toList

/-- The first occurrences of the types in order, the root at the end. -/
def rootLast (types : List BindingId) : List BindingId :=
  types.eraseDups.filter (!table.isRoot ·) ++ types.eraseDups.filter table.isRoot

/-- The lineage of a type down to a depth. -/
def lineageWithin : Nat → BindingId → List BindingId
  | 0, _ => []
  | depth + 1, binding => table.arranged (table.gathered (lineageWithin depth) binding)

/-- The types above a type. -/
def lineage (binding : BindingId) : List BindingId :=
  table.lineageWithin (table.size + 1) binding

/-- The lists that a function gives for a binding and all that is above it obey the plain
recursion. -/
def ListsAbove (lists : BindingId → List BindingId) (binding : BindingId) : Prop :=
  ∀ upper, ReflTransGen table.Above binding upper →
    lists upper = table.rootLast (table.gathered lists upper)

/-- At most one known type is named like the root of the reference types. -/
def HasUniqueRoot : Prop :=
  ∀ left right, table.isKnown left → table.isKnown right → table.isRoot left →
    table.isRoot right → left = right

end Definitions

variable {table : Table} {binding other lower upper : BindingId} {types : List BindingId}
  {lineageOf : BindingId → List BindingId}

/-! ## Direct supertypes -/

/-- The types with a facade of their own are the resolved ones of a kind that is known. -/
theorem facadeKind?_eq_some_iff {kind : TypeKind} : table.facadeKind? binding = some kind ↔
    (table.entry binding).typeKind = some kind ∧ kind ≠ .unknown ∧
      (table.entry binding).recovered = false := by
  rw [facadeKind?]
  cases isKind : (table.entry binding).typeKind with
  | none => simp
  | some other => cases other <;> cases (table.entry binding).recovered <;> grind

theorem above_iff : table.Above lower upper ↔
    (table.entry lower).recovered = false ∧
      (table.linearSuperclass? lower = some upper ∨ upper ∈ (table.entry lower).interfaces) ∧
      table.isKnown upper := by
  rw [Above, linearParents]
  cases recovered : (table.entry lower).recovered with
  | true => simp
  | false => simp [or_and_right]

theorem Above.inTable (above : table.Above lower upper) : lower.index < table.size := by
  by_contra outside
  simp [above_iff, linearSuperclass?, entry_of_outside outside] at above

theorem CycleAbove.of_above {fault : SemanticFault} (above : table.Above lower upper)
    (cycle : table.CycleAbove upper fault) : table.CycleAbove lower fault := by
  rcases cycle with ⟨cyclic, isFault, path, returns⟩
  exact ⟨cyclic, isFault, .head above path, returns⟩

/-- Every path up from a type ends when it meets no cycle. -/
theorem grounded_of_noCycle
    (noCycle : ∀ finish, ReflTransGen table.Above binding finish →
      ¬ TransGen table.Above finish finish) : Grounded table.Above binding := by
  have sources (lower upper : BindingId) (above : table.Above lower upper) :
      lower ∈ table.bindings := mem_bindings.2 above.inTable
  exact Grounded.of_noCycle sources noCycle

/-! ## The recursion -/

theorem gathered_congr {left right : BindingId → List BindingId}
    (same : ∀ upper, table.Above binding upper → left upper = right upper) :
    table.gathered left binding = table.gathered right binding := by
  rw [gathered, gathered]
  cases recovered : (table.entry binding).recovered with
  | true => rfl
  | false =>
      have sameStep (upper : BindingId) (isParent : table.linearSuperclass? binding = some upper ∨
          upper ∈ (table.entry binding).interfaces) :
          table.withLineage left upper = table.withLineage right upper := by
        rw [withLineage, withLineage]
        split
        case isTrue known => rw [same upper (above_iff.2 ⟨recovered, isParent, known⟩)]
        case isFalse => rfl
      have sameSuperclass : (table.linearSuperclass? binding).toList.flatMap
          (table.withLineage left) =
          (table.linearSuperclass? binding).toList.flatMap (table.withLineage right) :=
        List.flatMap_congr fun upper isParent =>
          sameStep upper (.inl (Option.mem_toList.1 isParent))
      have sameInterfaces : (table.entry binding).interfaces.flatMap (table.withLineage left) =
          (table.entry binding).interfaces.flatMap (table.withLineage right) :=
        List.flatMap_congr fun upper isParent => sameStep upper (.inr isParent)
      rw [sameSuperclass, sameInterfaces]

/-- A path up to a type that never holds a type twice is no longer than the table. -/
theorem length_le_of_below {path : List BindingId} (distinct : path.Nodup)
    (below : ∀ lower ∈ path, TransGen table.Above lower binding) : path.length ≤ table.size := by
  have inTable : path ⊆ table.bindings := by
    intro lower onPath
    rcases TransGen.head'_iff.1 (below lower onPath) with ⟨_, above, _⟩
    exact mem_bindings.2 above.inTable
  have few := (distinct.subperm inTable).length_le
  simpa only [bindings, List.length_map, List.length_range] using few

/-- A path up to a type goes on to the types above it. -/
theorem below_cons {path : List BindingId} (above : table.Above binding upper)
    (below : ∀ lower ∈ path, TransGen table.Above lower binding) :
    ∀ lower ∈ binding :: path, TransGen table.Above lower upper := by
  intro lower onPath
  rcases List.mem_cons.1 onPath with rfl | onPath
  · exact .single above
  · exact (below lower onPath).tail above

/-- Going down one level further adds nothing to a lineage, once the types below on
the way are so many that there can be no others. -/
theorem lineageWithin_succ {depth : Nat} {path : List BindingId}
    (grounded : Grounded table.Above binding) (distinct : path.Nodup)
    (below : ∀ lower ∈ path, TransGen table.Above lower binding)
    (enough : table.size < depth + path.length) :
    table.lineageWithin (depth + 1) binding = table.lineageWithin depth binding := by
  induction depth generalizing binding path with
  | zero =>
      have few := length_le_of_below distinct below
      omega
  | succ depth ih =>
      rw [lineageWithin, lineageWithin]
      congr 1
      apply gathered_congr
      intro upper above
      have distinct : (binding :: path).Nodup := by
        rw [List.nodup_cons]
        exact ⟨fun onPath => grounded.noCycle (below binding onPath), distinct⟩
      apply ih (grounded.next above) distinct (below_cons above below)
      simp only [List.length_cons]
      omega

theorem arrayRoot_of_superclass (hasSuperclass : table.linearSuperclass? binding = some upper) :
    table.arrayRoot binding = [] := by
  cases typeKind : (table.entry binding).typeKind with
  | none => simp [linearSuperclass?, typeKind] at hasSuperclass
  | some kind => cases kind <;> simp_all [linearSuperclass?, arrayRoot, kindOf]

/-- The lineage of a type is arranged from the lineages of the types above it. -/
theorem lineage_eq (grounded : Grounded table.Above binding) :
    table.lineage binding = table.arranged (table.gathered table.lineage binding) := by
  rw [lineage, lineageWithin]
  congr 1
  apply gathered_congr
  intro upper above
  have distinct : [binding].Nodup := by simp
  have deeper :
      table.lineageWithin (table.size + 1) upper = table.lineageWithin table.size upper := by
    apply lineageWithin_succ (grounded.next above) distinct
    · simpa using TransGen.single above
    · simp
  exact deeper.symm

/-! ## Arrangement -/

theorem mem_of_mem_arranged (member : other ∈ table.arranged types) : other ∈ types := by
  rcases List.mem_append.1 member with ordinary | root
  · exact (List.mem_filter.1 (List.mem_eraseDups.1 ordinary)).1
  · have isLast := List.mem_of_getLast? (Option.mem_toList.1 root)
    exact (List.mem_filter.1 isLast).1

/-- With one root among the types, they are arranged by moving it to the end. -/
theorem arranged_eq_rootLast
    (unique : ∀ left ∈ types, ∀ right ∈ types, table.isRoot left → table.isRoot right →
      left = right) : table.arranged types = table.rootLast types := by
  have oneRoot : ∀ left ∈ types.filter table.isRoot, ∀ right ∈ types.filter table.isRoot,
      left = right := by
    intro left isLeft right isRight
    rw [List.mem_filter] at isLeft isRight
    exact unique left isLeft.1 right isRight.1 isLeft.2 isRight.2
  rw [arranged, rootLast, filter_eraseDups, filter_eraseDups, eraseDups_of_allEqual oneRoot]

theorem mem_rootLast : other ∈ table.rootLast types ↔ other ∈ types := by
  simp only [rootLast, List.mem_append, List.mem_filter, List.mem_eraseDups]
  cases table.isRoot other <;> simp

theorem nodup_rootLast : (table.rootLast types).Nodup := by
  rw [rootLast, List.nodup_append]
  refine ⟨nodup_eraseDups.filter _, nodup_eraseDups.filter _, ?_⟩
  intro ordinary isOrdinary root isRoot same
  simp_all [List.mem_filter]

/-- The root is at the end of what is arranged. -/
theorem getLast?_rootLast (member : other ∈ types) (isRoot : table.isRoot other)
    (unique : ∀ left ∈ types, ∀ right ∈ types, table.isRoot left → table.isRoot right →
      left = right) : (table.rootLast types).getLast? = some other := by
  have isLast : (types.eraseDups.filter table.isRoot).getLast? = some other := by
    cases last : (types.eraseDups.filter table.isRoot).getLast? with
    | none => simp_all [List.mem_eraseDups]
    | some root =>
        have found := List.mem_of_getLast? last
        rw [List.mem_filter, List.mem_eraseDups] at found
        rw [unique root found.1 other member found.2 isRoot]
  rw [rootLast, List.getLast?_append, isLast]
  rfl

/-- All that is gathered is known, as long as the lineages above are. -/
theorem isKnown_of_mem_gathered
    (known : ∀ upper, ∀ other ∈ lineageOf upper, table.isKnown other)
    (member : other ∈ table.gathered lineageOf binding) : table.isKnown other := by
  have knownStep {upper : BindingId} (member : other ∈ table.withLineage lineageOf upper) :
      table.isKnown other := by
    rw [withLineage] at member
    split at member
    case isTrue upperKnown =>
      rcases List.mem_cons.1 member with rfl | inLineage
      · exact upperKnown
      · exact known upper other inLineage
    case isFalse => cases member
  rw [gathered] at member
  split at member
  case isTrue => cases member
  case isFalse =>
    rw [List.mem_append, List.mem_append, List.mem_flatMap, List.mem_flatMap] at member
    rcases member with (⟨superclass, -, found⟩ | isRoot) | ⟨interface, -, found⟩
    · exact knownStep found
    · rw [arrayRoot] at isRoot
      split at isRoot
      · exact (List.mem_filter.1 isRoot).2
      · cases isRoot
    · exact knownStep found

theorem isKnown_of_mem_lineageWithin {depth : Nat}
    (member : other ∈ table.lineageWithin depth binding) :
    table.isKnown other := by
  induction depth generalizing binding other with
  | zero => cases member
  | succ depth ih =>
      rw [lineageWithin] at member
      exact isKnown_of_mem_gathered (fun _ _ => ih) (mem_of_mem_arranged member)

theorem isKnown_of_mem_lineage (member : other ∈ table.lineage binding) : table.isKnown other :=
  isKnown_of_mem_lineageWithin member

theorem root_eq_of_mem_gathered (unique : table.HasUniqueRoot)
    (inLeft : lower ∈ table.gathered table.lineage binding)
    (inRight : upper ∈ table.gathered table.lineage binding)
    (leftRoot : table.isRoot lower) (rightRoot : table.isRoot upper) : lower = upper := by
  have known {other : BindingId} (member : other ∈ table.gathered table.lineage binding) :
      table.isKnown other :=
    isKnown_of_mem_gathered (fun _ _ => isKnown_of_mem_lineage) member
  exact unique lower upper (known inLeft) (known inRight) leftRoot rightRoot

/-- With a unique root, the recursion reads: first occurrences in order, the root last. -/
theorem lineage_eq_rootLast (unique : table.HasUniqueRoot)
    (grounded : Grounded table.Above binding) :
    table.lineage binding = table.rootLast (table.gathered table.lineage binding) := by
  rw [lineage_eq grounded]
  exact arranged_eq_rootLast fun _ inLeft _ inRight => root_eq_of_mem_gathered unique inLeft inRight

theorem nodup_lineage (unique : table.HasUniqueRoot) (grounded : Grounded table.Above binding) :
    (table.lineage binding).Nodup := by
  rw [lineage_eq_rootLast unique grounded]
  exact nodup_rootLast

theorem getLast?_lineage (unique : table.HasUniqueRoot)
    (grounded : Grounded table.Above binding) (member : other ∈ table.lineage binding)
    (isRoot : table.isRoot other) : (table.lineage binding).getLast? = some other := by
  rw [lineage_eq_rootLast unique grounded] at member ⊢
  exact getLast?_rootLast (mem_rootLast.1 member) isRoot fun _ inLeft _ inRight =>
    root_eq_of_mem_gathered unique inLeft inRight

theorem listsAbove_lineage (unique : table.HasUniqueRoot)
    (grounded : Grounded table.Above binding) : table.ListsAbove table.lineage binding :=
  fun _ path => lineage_eq_rootLast unique (grounded.reached path)

/-- Where no cycle is reached, the recursion has one solution. -/
theorem ListsAbove.eq_lineage (unique : table.HasUniqueRoot)
    (grounded : Grounded table.Above binding) (obeys : table.ListsAbove lineageOf binding) :
    lineageOf binding = table.lineage binding := by
  induction grounded with
  | intro binding above ih =>
      have same : table.gathered lineageOf binding = table.gathered table.lineage binding := by
        apply gathered_congr
        intro upper isAbove
        exact ih upper isAbove fun other path => obeys other (.head isAbove path)
      rw [obeys binding .refl, same, ← lineage_eq_rootLast unique (Acc.intro binding above)]

/-! ## Checks of a table -/

/-- What holds of the known types of a table holds of all known types. -/
theorem forall_isKnown_iff {holds : BindingId → Prop} :
    (∀ type, table.isKnown type → holds type) ↔
      ∀ type ∈ table.bindings, table.isKnown type → holds type := by
  constructor
  · intro all type _
    exact all type
  · intro inTable type known
    apply inTable type _ known
    rw [mem_bindings]
    by_contra outside
    simp [isKnown, facadeKind?, entry_of_outside outside] at known

instance : Decidable table.HasUniqueRoot :=
  decidable_of_iff
    (∀ left ∈ table.bindings, table.isKnown left → ∀ right ∈ table.bindings,
      table.isKnown right → table.isRoot left → table.isRoot right → left = right) <| by
    simp only [← forall_isKnown_iff]
    constructor
    · intro unique left right leftKnown rightKnown
      exact unique left leftKnown right rightKnown
    · intro unique left leftKnown right rightKnown
      exact unique left right leftKnown rightKnown

end Table

end JavaInspect
