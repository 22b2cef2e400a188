import JavaInspect.Proofs.Semantics.Enclosing

/-!
# Owners that run in circles

Owners may run in a circle, end anywhere or come by packages. The way outwards from a declaration
then has a first type unless it runs in a circle without one, and a last type before a package
unless it runs in a circle without a package. The chain of owners that is laid out before a walk
ends where the walk does.
-/

namespace JavaInspect

open Relation

namespace Table

variable (table : Table)

/-- The owners of a declaration run in a circle, and neither they nor the declaration are of a
kind. -/
def CirclesWithout (kind : BindingKind) (binding : BindingId) : Prop :=
  table.RunsInCircle binding ∧
    ∀ upper, ReflTransGen table.Owns binding upper → (table.entry upper).kind ≠ kind

/-- A step outwards from a declaration that is not of a kind. -/
def OwnsBelow (kind : BindingKind) (lower upper : BindingId) : Prop :=
  (table.entry lower).kind ≠ kind ∧ table.Owns lower upper

/-- The first type on the way outwards from a declaration, itself included. -/
def IsNearest (binding type : BindingId) : Prop :=
  (table.entry type).kind = .type ∧ ReflTransGen (table.OwnsBelow .type) binding type

/-- A type on the way outwards from a declaration, itself included, before any package. -/
def HasAround (binding type : BindingId) : Prop :=
  (table.entry type).kind = .type ∧ ReflTransGen (table.OwnsBelow .package) binding type

/-- The last type on the way outwards from a declaration, itself included, before any package. -/
def IsOutermost (binding type : BindingId) : Prop :=
  table.HasAround binding type ∧
    ∀ further, TransGen (table.OwnsBelow .package) type further →
      (table.entry further).kind ≠ .type

/-- On the way outwards from a declaration a package comes before a type. -/
def PackageBeforeType (binding : BindingId) : Prop :=
  ∃ package type, ReflTransGen table.Owns binding package ∧
    (table.entry package).kind = .package ∧ ReflTransGen table.Owns package type ∧
      (table.entry type).kind = .type

/-! ## The way outwards, step by step -/

/-- The first type on a way outwards that does not run in a circle before. -/
inductive FirstType : BindingId → Option BindingId → Prop where
  | type {binding : BindingId} (isType : (table.entry binding).kind = .type) :
      FirstType binding (some binding)
  | ends {binding : BindingId} (noType : (table.entry binding).kind ≠ .type)
      (noOwner : (table.entry binding).owner = none) : FirstType binding none
  | step {binding next : BindingId} {shown : Option BindingId}
      (noType : (table.entry binding).kind ≠ .type) (owns : table.Owns binding next)
      (further : FirstType next shown) : FirstType binding shown

/-- The declaration itself if it is a type, or else what was found before. -/
def typeOr (binding : BindingId) (found : Option BindingId) : Option BindingId :=
  if (table.entry binding).kind = .type then some binding else found

/-- The last type on a way outwards that ends or comes to a package, or what was found before. -/
inductive LastType : Option BindingId → BindingId → Option BindingId → Prop where
  | package {found : Option BindingId} {binding : BindingId}
      (isPackage : (table.entry binding).kind = .package) : LastType found binding found
  | ends {found : Option BindingId} {binding : BindingId}
      (noPackage : (table.entry binding).kind ≠ .package)
      (noOwner : (table.entry binding).owner = none) :
      LastType found binding (table.typeOr binding found)
  | step {found shown : Option BindingId} {binding next : BindingId}
      (noPackage : (table.entry binding).kind ≠ .package) (owns : table.Owns binding next)
      (further : LastType (table.typeOr binding found) next shown) : LastType found binding shown

/-- A chain of owners: it ends at a declaration that has no owner or was passed before. -/
inductive Trail : List BindingId → BindingId → List BindingId → Prop where
  | ends {passed : List BindingId} {binding : BindingId}
      (noOwner : (table.entry binding).owner = none) : Trail passed binding []
  | again {passed : List BindingId} {binding : BindingId} (isPassed : binding ∈ passed) :
      Trail passed binding []
  | step {passed path : List BindingId} {binding next : BindingId}
      (owns : table.Owns binding next) (further : Trail (binding :: passed) next path) :
      Trail passed binding (next :: path)

variable {table} {kind : BindingKind} {start binding next type other : BindingId}
  {found shown : Option BindingId} {passed path unvisited : List BindingId}

/-! ## Circles -/

theorem Owns.unique (owns : table.Owns binding next) (also : table.Owns binding other) :
    next = other :=
  Option.some.inj (owns.symm.trans also)

theorem runsInCircle_iff (owns : table.Owns binding next) :
    table.RunsInCircle binding ↔ table.RunsInCircle next := by
  constructor
  · rintro ⟨cyclic, path, returns⟩
    rcases ReflTransGen.cases_head path with rfl | ⟨middle, linked, further⟩
    · rcases TransGen.head'_iff.1 returns with ⟨middle, linked, back⟩
      obtain rfl := owns.unique linked
      exact ⟨binding, back, returns⟩
    · obtain rfl := owns.unique linked
      exact ⟨cyclic, further, returns⟩
  · rintro ⟨cyclic, path, returns⟩
    exact ⟨cyclic, path.head owns, returns⟩

theorem not_runsInCircle_of_noOwner (noOwner : (table.entry binding).owner = none) :
    ¬ table.RunsInCircle binding := by
  rintro ⟨cyclic, path, returns⟩
  have noStep : ∀ {upper}, ¬ table.Owns binding upper := fun owns => by
    cases noOwner.symm.trans owns
  rcases ReflTransGen.cases_head path with rfl | ⟨middle, linked, -⟩
  · rcases TransGen.head'_iff.1 returns with ⟨middle, linked, -⟩
    exact noStep linked
  · exact noStep linked

/-- A declaration that is not of the kind circles as its owner does. -/
theorem circlesWithout_iff (below : table.OwnsBelow kind binding next) :
    table.CirclesWithout kind binding ↔ table.CirclesWithout kind next := by
  refine and_congr (runsInCircle_iff below.2)
    ⟨fun without upper path => ?_, fun without upper path => ?_⟩
  · exact without upper (path.head below.2)
  · rcases ReflTransGen.cases_head path with rfl | ⟨middle, linked, further⟩
    · exact below.1
    · exact without upper (below.2.unique linked ▸ further)

theorem circlesWithout_iff_of_path (path : ReflTransGen (table.OwnsBelow kind) binding other) :
    table.CirclesWithout kind binding ↔ table.CirclesWithout kind other := by
  induction path with
  | refl => exact Iff.rfl
  | tail _ below ih => exact ih.trans (circlesWithout_iff below)

/-! ## First and last types -/

namespace FirstType

/-- A way outwards with a first type or an end does not run in a circle without types. -/
theorem not_circling (first : table.FirstType binding shown) :
    ¬ table.CirclesWithout .type binding := by
  induction first with
  | type isType => exact fun circles => circles.2 _ .refl isType
  | ends _ noOwner => exact fun circles => not_runsInCircle_of_noOwner noOwner circles.1
  | step noType owns _ ih => exact (circlesWithout_iff ⟨noType, owns⟩).not.2 ih

theorem eq_some_iff (first : table.FirstType binding shown) :
    shown = some type ↔ table.IsNearest binding type := by
  induction first with
  | @type binding isType =>
      constructor
      · intro same
        obtain rfl := Option.some.inj same
        exact ⟨isType, .refl⟩
      · rintro ⟨-, path⟩
        rcases ReflTransGen.cases_head path with rfl | ⟨middle, below, -⟩
        · rfl
        · exact absurd isType below.1
  | @ends binding noType noOwner =>
      refine iff_of_false (fun same => by cases same) ?_
      rintro ⟨isType, path⟩
      rcases ReflTransGen.cases_head path with rfl | ⟨middle, below, -⟩
      · exact noType isType
      · cases noOwner.symm.trans below.2
  | @step binding next shown noType owns _ ih =>
      rw [ih]
      constructor
      · rintro ⟨isType, path⟩
        exact ⟨isType, path.head ⟨noType, owns⟩⟩
      · rintro ⟨isType, path⟩
        rcases ReflTransGen.cases_head path with rfl | ⟨middle, below, further⟩
        · exact absurd isType noType
        · exact ⟨isType, owns.unique below.2 ▸ further⟩

end FirstType

theorem typeOr_of_type (isType : (table.entry binding).kind = .type) :
    table.typeOr binding found = some binding := if_pos isType

theorem typeOr_of_other (noType : (table.entry binding).kind ≠ .type) :
    table.typeOr binding found = found := if_neg noType

theorem HasAround.noPackage (around : table.HasAround binding type) :
    (table.entry binding).kind ≠ .package := by
  rcases ReflTransGen.cases_head around.2 with rfl | ⟨middle, below, -⟩
  · rw [around.1]
    nofun
  · exact below.1

/-- What lies around a declaration lies around its owner, apart from the declaration itself. -/
theorem HasAround.self_or_next (around : table.HasAround binding type)
    (owns : table.Owns binding next) : binding = type ∨ table.HasAround next type := by
  rcases ReflTransGen.cases_head around.2 with same | ⟨middle, below, further⟩
  · exact .inl same
  · exact .inr ⟨around.1, owns.unique below.2 ▸ further⟩

/-- There is one way outwards, so there is one last type on it. -/
theorem IsOutermost.unique (outermost : table.IsOutermost binding type)
    (also : table.IsOutermost binding other) : type = other := by
  have only : Relator.RightUnique (table.OwnsBelow .package) :=
    fun _ _ _ below also => below.2.unique also.2
  rcases ReflTransGen.total_of_right_unique only outermost.1.2 also.1.2 with path | path
  · rcases reflTransGen_iff_eq_or_transGen.1 path with same | further
    · exact same.symm
    · exact absurd also.1.1 (outermost.2 _ further)
  · rcases reflTransGen_iff_eq_or_transGen.1 path with same | further
    · exact same
    · exact absurd outermost.1.1 (also.2 _ further)

namespace LastType

/-- A way outwards that ends or comes to a package does not run in a circle without packages. -/
theorem not_circling (last : table.LastType found binding shown) :
    ¬ table.CirclesWithout .package binding := by
  induction last with
  | package isPackage => exact fun circles => circles.2 _ .refl isPackage
  | ends _ noOwner => exact fun circles => not_runsInCircle_of_noOwner noOwner circles.1
  | step noPackage owns _ ih => exact (circlesWithout_iff ⟨noPackage, owns⟩).not.2 ih

/-- Either the outermost type is found, or there is no type and what was found before stays. -/
theorem outermost_or (last : table.LastType found binding shown) :
    (∃ type, shown = some type ∧ table.IsOutermost binding type) ∨
      shown = found ∧ ∀ type, ¬ table.HasAround binding type := by
  induction last with
  | package isPackage => exact .inr ⟨rfl, fun _ around => around.noPackage isPackage⟩
  | @ends found binding noPackage noOwner =>
      have noStep : ∀ {upper}, ¬ table.OwnsBelow .package binding upper := fun below => by
        cases noOwner.symm.trans below.2
      by_cases isType : (table.entry binding).kind = .type
      · refine .inl ⟨binding, typeOr_of_type isType, ⟨isType, .refl⟩, fun further path => ?_⟩
        rcases TransGen.head'_iff.1 path with ⟨middle, below, -⟩
        exact absurd below noStep
      · refine .inr ⟨typeOr_of_other isType, fun type around => ?_⟩
        rcases ReflTransGen.cases_head around.2 with rfl | ⟨middle, below, -⟩
        · exact isType around.1
        · exact noStep below
  | @step found shown binding next noPackage owns _ ih =>
      rcases ih with ⟨type, isShown, outermost⟩ | ⟨same, none⟩
      · exact .inl ⟨type, isShown,
          ⟨outermost.1.1, outermost.1.2.head ⟨noPackage, owns⟩⟩, outermost.2⟩
      · by_cases isType : (table.entry binding).kind = .type
        · rw [typeOr_of_type isType] at same
          refine .inl ⟨binding, same, ⟨isType, .refl⟩, fun further path isFurther => ?_⟩
          rcases TransGen.head'_iff.1 path with ⟨middle, below, onwards⟩
          exact none further ⟨isFurther, owns.unique below.2 ▸ onwards⟩
        · rw [typeOr_of_other isType] at same
          refine .inr ⟨same, fun type around => ?_⟩
          rcases around.self_or_next owns with rfl | further
          · exact isType around.1
          · exact none type further

theorem eq_some_iff (last : table.LastType none binding shown) :
    shown = some type ↔ table.IsOutermost binding type := by
  rcases last.outermost_or with ⟨found, rfl, outermost⟩ | ⟨rfl, none⟩
  · rw [Option.some.injEq]
    exact ⟨fun same => same ▸ outermost, outermost.unique⟩
  · exact iff_of_false (fun same => by cases same) fun outermost => none type outermost.1

end LastType

/-! ## What a walk has passed -/

/-- What lies behind a walk that began at a declaration and stops at a kind. -/
structure Passing (table : Table) (kind : BindingKind) (start : BindingId)
    (passed : List BindingId) (binding : BindingId) : Prop where
  started : start ∈ binding :: passed
  without : ∀ earlier ∈ passed, (table.entry earlier).kind ≠ kind
  linked : ∀ earlier ∈ passed, ∃ next ∈ binding :: passed, table.Owns earlier next
  leads : ∀ earlier ∈ passed, TransGen table.Owns earlier binding

namespace Passing

theorem begin : table.Passing kind start [] start where
  started := List.mem_cons_self
  without _ isIn := by cases isIn
  linked _ isIn := by cases isIn
  leads _ isIn := by cases isIn

theorem step (passing : table.Passing kind start passed binding)
    (notKind : (table.entry binding).kind ≠ kind) (owns : table.Owns binding next) :
    table.Passing kind start (binding :: passed) next where
  started := List.mem_cons_of_mem _ passing.started
  without earlier isIn := by
    rcases List.mem_cons.1 isIn with rfl | isIn
    · exact notKind
    · exact passing.without earlier isIn
  linked earlier isIn := by
    rcases List.mem_cons.1 isIn with rfl | isIn
    · exact ⟨next, List.mem_cons_self, owns⟩
    · rcases passing.linked earlier isIn with ⟨linked, isLinked, owns⟩
      exact ⟨linked, List.mem_cons_of_mem _ isLinked, owns⟩
  leads earlier isIn := by
    rcases List.mem_cons.1 isIn with rfl | isIn
    · exact .single owns
    · exact (passing.leads earlier isIn).tail owns

/-- Coming to a declaration again closes a circle in which there is nothing else. -/
theorem circles (passing : table.Passing kind start passed binding) (again : binding ∈ passed) :
    table.CirclesWithout kind start := by
  have only : ∀ {upper}, upper ∈ binding :: passed → upper ∈ passed := fun isIn =>
    (List.mem_cons.1 isIn).elim (· ▸ again) id
  have isPassed : start ∈ passed := only passing.started
  refine ⟨⟨binding, (passing.leads start isPassed).to_reflTransGen, passing.leads binding again⟩,
    fun upper path => ?_⟩
  have stays : upper ∈ passed := by
    induction path with
    | refl => exact isPassed
    | @tail lower upper _ owns ih =>
        rcases passing.linked lower ih with ⟨linked, isLinked, alsoOwns⟩
        exact owns.unique alsoOwns ▸ only isLinked
  exact passing.without upper stays

end Passing

/-! ## The chain of owners -/

theorem nodup_bindings : table.bindings.Nodup :=
  List.nodup_range.map fun _ _ => BindingId.mk.inj

theorem length_bindings : table.bindings.length = table.size := by
  rw [bindings, List.length_map, List.length_range]

/-- A chain through what is not yet visited is a trail when everything else was passed. -/
theorem trail_chainWithin (distinct : unvisited.Nodup)
    (others : ∀ other ∈ table.bindings, other ∉ unvisited → other ∈ binding :: passed) :
    table.Trail passed binding
      (chainWithin (fun declared => (table.entry declared).owner) unvisited binding) := by
  induction unvisited, binding using chainWithin.induct
      (fun declared => (table.entry declared).owner) generalizing passed with
  | case1 unvisited binding noOwner =>
      rw [chainWithin, noOwner]
      exact .ends noOwner
  | case2 unvisited binding next isOwner fresh ih =>
      rw [chainWithin, isOwner]
      simp only [fresh, dite_true]
      refine .step isOwner (ih (distinct.erase next) fun other inTable visited => ?_)
      by_cases isNext : other = next
      · exact isNext ▸ List.mem_cons_self
      · refine List.mem_cons_of_mem _ (others other inTable fun isIn => visited ?_)
        exact (List.mem_erase_of_ne isNext).2 isIn
  | case3 unvisited binding next isOwner visited =>
      rw [chainWithin, isOwner]
      simp only [visited, dite_false]
      refine .step isOwner ?_
      by_cases inTable : next ∈ table.bindings
      · exact .again (others next inTable visited)
      · refine .ends ?_
        rw [entry_of_outside (mem_bindings.not.1 inTable)]

/-- The owners of a declaration follow each other up to one that was passed before. -/
theorem trail_owners (binding : BindingId) : table.Trail [] binding (table.owners binding) := by
  refine trail_chainWithin (nodup_bindings.erase binding) fun other inTable visited => ?_
  by_contra apart
  exact visited ((List.mem_erase_of_ne fun same => apart (List.mem_singleton.2 same)).2 inTable)

theorem length_chainWithin_le (next : BindingId → Option BindingId) (unvisited : List BindingId)
    (binding : BindingId) : (chainWithin next unvisited binding).length ≤ unvisited.length + 1 := by
  induction unvisited, binding using chainWithin.induct next with
  | case1 unvisited binding isNext => simp [chainWithin, isNext]
  | case2 unvisited binding linked isNext fresh ih =>
      have shorter := List.length_erase_of_mem fresh
      have nonempty := List.length_pos_of_mem fresh
      rw [chainWithin, isNext]
      simp only [fresh, dite_true, List.length_cons]
      omega
  | case3 unvisited binding linked isNext visited =>
      rw [chainWithin, isNext]
      simp [visited]

theorem length_owners_le (binding : BindingId) :
    (table.owners binding).length ≤ table.size + 1 := by
  have bounded := length_chainWithin_le (fun declared => (table.entry declared).owner)
    (table.bindings.erase binding) binding
  have shorter : (table.bindings.erase binding).length ≤ table.bindings.length :=
    List.length_erase_le
  rw [length_bindings] at shorter
  exact Nat.le_trans bounded (Nat.add_le_add_right shorter 1)

end Table

end JavaInspect
