import JavaInspect.Proofs.Binding.Building
import JavaInspect.Proofs.Hierarchy.Lineage

/-!
# Lineages as reachability

Where supertypes do not run in a circle and the root has nothing above it, the lineage
of a type holds exactly what can be reached from it by supertype steps.
-/

namespace JavaInspect

open Relation

namespace Table

variable {table : Table} {binding lower upper other : BindingId}

/-- A supertype step leaves a type through its superclass or an interface, and an array
also for the root; it arrives at a known type. -/
def StepsTo (table : Table) (lower upper : BindingId) : Prop :=
  (table.entry lower).recovered = false ∧ table.isKnown upper ∧
    (table.linearSuperclass? lower = some upper ∨ upper ∈ (table.entry lower).interfaces ∨
      (table.kindOf lower = .array ∧ table.resolveType rootTypeName = some upper))

/-- Nothing is above the root of the reference types. -/
def HasBareRoot (table : Table) : Prop :=
  ∀ root, table.isKnown root → table.isRoot root →
    (table.entry root).superclass = none ∧ (table.entry root).interfaces = []

instance : Decidable table.HasBareRoot :=
  decidable_of_iff _ forall_isKnown_iff.symm

theorem Above.stepsTo (above : table.Above lower upper) : table.StepsTo lower upper := by
  rcases above_iff.1 above with ⟨recovered, isSuperclass | isInterface, known⟩
  · exact ⟨recovered, known, .inl isSuperclass⟩
  · exact ⟨recovered, known, .inr (.inl isInterface)⟩

theorem StepsTo.inTable (step : table.StepsTo lower upper) : lower.index < table.size := by
  by_contra outside
  simp [StepsTo, linearSuperclass?, kindOf, entry_of_outside outside] at step

theorem mem_arrayRoot_iff : upper ∈ table.arrayRoot lower ↔
    table.kindOf lower = .array ∧ table.resolveType rootTypeName = some upper ∧
      table.isKnown upper := by
  rw [arrayRoot]
  by_cases isArray : table.kindOf lower = .array <;> simp [isArray]

/-- A step goes up to a parent, or from an array to the root. -/
theorem stepsTo_iff : table.StepsTo lower upper ↔ table.Above lower upper ∨
    ((table.entry lower).recovered = false ∧ upper ∈ table.arrayRoot lower) := by
  rw [StepsTo, above_iff, mem_arrayRoot_iff]
  tauto

/-- The types that one step leads to. -/
def stepsFrom (table : Table) (binding : BindingId) : List BindingId :=
  table.linearParents binding ++
    if (table.entry binding).recovered then [] else table.arrayRoot binding

theorem mem_stepsFrom_iff : upper ∈ table.stepsFrom lower ↔ table.StepsTo lower upper := by
  rw [stepsTo_iff, stepsFrom, List.mem_append, Above]
  cases (table.entry lower).recovered <;> simp

instance : Decidable (table.StepsTo lower upper) :=
  decidable_of_iff _ mem_stepsFrom_iff

theorem mem_withLineage_iff {lineageOf : BindingId → List BindingId} :
    other ∈ table.withLineage lineageOf upper ↔
      table.isKnown upper ∧ (other = upper ∨ other ∈ lineageOf upper) := by
  rw [withLineage]
  split
  case isTrue known => simp [known]
  case isFalse unknown => simp [unknown]

theorem mem_gathered_iff {lineageOf : BindingId → List BindingId} :
    other ∈ table.gathered lineageOf binding ↔
      (∃ upper, table.Above binding upper ∧ (other = upper ∨ other ∈ lineageOf upper)) ∨
        ((table.entry binding).recovered = false ∧ other ∈ table.arrayRoot binding) := by
  rw [gathered]
  cases recovered : (table.entry binding).recovered with
  | true => simp [above_iff, recovered]
  | false =>
      simp only [Bool.false_eq_true, if_false, List.mem_append, List.mem_flatMap,
        Option.mem_toList, mem_withLineage_iff, above_iff, recovered, true_and]
      constructor
      · intro found
        rcases found with
          (⟨upper, isSuperclass, known, met⟩ | isRoot) | ⟨upper, isInterface, known, met⟩
        · exact .inl ⟨upper, ⟨.inl isSuperclass, known⟩, met⟩
        · exact .inr isRoot
        · exact .inl ⟨upper, ⟨.inr isInterface, known⟩, met⟩
      · intro found
        rcases found with ⟨upper, ⟨isSuperclass | isInterface, known⟩, met⟩ | isRoot
        · exact .inl (.inl ⟨upper, isSuperclass, known, met⟩)
        · exact .inr ⟨upper, isInterface, known, met⟩
        · exact .inl (.inr isRoot)

theorem WellLinked.isRoot_of_mem_arrayRoot (linked : table.WellLinked)
    (member : upper ∈ table.arrayRoot lower) : table.isKnown upper ∧ table.isRoot upper := by
  rcases mem_arrayRoot_iff.1 member with ⟨-, resolved, known⟩
  refine ⟨known, ?_⟩
  rw [isRoot, beq_iff_eq]
  exact linked.qualifiedName_of_resolveType resolved

/-! ## Types other than the root -/

theorem mem_arranged_iff {types : List BindingId} (notRoot : table.isRoot other = false) :
    other ∈ table.arranged types ↔ other ∈ types := by
  constructor
  · exact mem_of_mem_arranged
  · intro member
    rw [arranged, List.mem_append, List.mem_eraseDups, List.mem_filter, notRoot]
    exact .inl ⟨member, rfl⟩

/-- A lineage holds only what leads up from parent to parent, and the root above an array on the
way. -/
theorem above_or_root_of_mem_lineage (grounded : Grounded table.Above binding)
    (member : other ∈ table.lineage binding) : TransGen table.Above binding other ∨
      ∃ array, ReflTransGen table.Above binding array ∧ other ∈ table.arrayRoot array := by
  induction grounded with
  | intro binding above ih =>
      rw [lineage_eq (Acc.intro binding above)] at member
      rcases mem_gathered_iff.1 (mem_of_mem_arranged member) with
        ⟨upper, isAbove, rfl | inLineage⟩ | ⟨-, isRoot⟩
      · exact .inl (.single isAbove)
      · refine (ih upper isAbove inLineage).imp (.head isAbove) fun found => ?_
        rcases found with ⟨array, path, isRoot⟩
        exact ⟨array, .head isAbove path, isRoot⟩
      · exact .inr ⟨binding, .refl, isRoot⟩

/-- What leads up from parent to parent is in the lineage, unless it is one of several types that
are named like the root. -/
theorem mem_lineage_of_above (grounded : Grounded table.Above binding)
    (unique : table.isRoot other → table.HasUniqueRoot)
    (path : TransGen table.Above binding other) : other ∈ table.lineage binding := by
  induction grounded with
  | intro binding above ih =>
      rcases TransGen.head'_iff.1 path with ⟨upper, isAbove, further⟩
      have isGathered : other ∈ table.gathered table.lineage binding := by
        refine mem_gathered_iff.2 (.inl ⟨upper, isAbove, ?_⟩)
        exact (reflTransGen_iff_eq_or_transGen.1 further).imp id (ih upper isAbove)
      cases isRoot : table.isRoot other with
      | true =>
          rw [lineage_eq_rootLast (unique isRoot) (Acc.intro binding above)]
          exact mem_rootLast.2 isGathered
      | false =>
          rw [lineage_eq (Acc.intro binding above)]
          exact (mem_arranged_iff isRoot).2 isGathered

/-- Apart from the root, a lineage holds the types that lead up from parent to parent. -/
theorem mem_lineage_iff_above (linked : table.WellLinked)
    (grounded : Grounded table.Above binding) (notRoot : table.isRoot other = false) :
    other ∈ table.lineage binding ↔ TransGen table.Above binding other := by
  have noRoot {array : BindingId} : other ∉ table.arrayRoot array := fun isRoot => by
    rw [(linked.isRoot_of_mem_arrayRoot isRoot).2] at notRoot
    cases notRoot
  constructor
  · intro member
    rcases above_or_root_of_mem_lineage grounded member with path | ⟨array, -, isRoot⟩
    · exact path
    · exact absurd isRoot noRoot
  · exact mem_lineage_of_above grounded fun isRoot => by
      rw [isRoot] at notRoot
      cases notRoot

/-! ## Tables without circles -/

section Acyclic

variable (linked : table.WellLinked) (unique : table.HasUniqueRoot) (bare : table.HasBareRoot)
  (acyclic : Acyclic table.StepsTo)

include acyclic in
theorem grounded_of_acyclic : Grounded table.Above binding := by
  apply grounded_of_noCycle
  intro finish _ returns
  have steps : table.Above ≤ table.StepsTo := fun _ _ => Above.stepsTo
  exact acyclic finish (TransGen.mono steps finish finish returns)

include linked unique bare acyclic in
/-- No step leaves the root. -/
theorem not_stepsTo_of_isRoot (known : table.isKnown lower) (isRoot : table.isRoot lower) :
    ¬ table.StepsTo lower upper := by
  intro step
  rcases bare lower known isRoot with ⟨noSuperclass, noInterfaces⟩
  rcases stepsTo_iff.1 step with above | ⟨-, upperRoot⟩
  · rcases above_iff.1 above with ⟨-, isSuperclass | isInterface, -⟩
    · rw [linearSuperclass?, noSuperclass] at isSuperclass
      split at isSuperclass <;> cases isSuperclass
    · rw [noInterfaces] at isInterface
      cases isInterface
  · rcases linked.isRoot_of_mem_arrayRoot upperRoot with ⟨upperKnown, upperIsRoot⟩
    obtain rfl := unique lower upper known upperKnown isRoot upperIsRoot
    exact acyclic lower (.single step)

include linked unique bare acyclic in
/-- A lineage holds the types that one or more steps lead to. -/
theorem mem_lineage_iff : other ∈ table.lineage binding ↔ TransGen table.StepsTo binding other := by
  have grounded : Grounded table.Above binding := grounded_of_acyclic acyclic
  -- The induction goes up to parents. A step to the root of an array needs none: it is the last.
  induction grounded with
  | intro binding _ ih =>
      rw [lineage_eq_rootLast unique (grounded_of_acyclic acyclic), mem_rootLast, mem_gathered_iff,
        TransGen.head'_iff]
      constructor
      · intro found
        rcases found with ⟨upper, above, rfl | inLineage⟩ | ⟨recovered, isRoot⟩
        · exact ⟨other, above.stepsTo, .refl⟩
        · exact ⟨upper, above.stepsTo, ((ih upper above).1 inLineage).to_reflTransGen⟩
        · exact ⟨other, stepsTo_iff.2 (.inr ⟨recovered, isRoot⟩), .refl⟩
      · intro found
        rcases found with ⟨upper, step, path⟩
        rw [reflTransGen_iff_eq_or_transGen] at path
        rcases stepsTo_iff.1 step with above | ⟨recovered, isRoot⟩
        · rcases path with rfl | path
          · exact .inl ⟨other, above, .inl rfl⟩
          · exact .inl ⟨upper, above, .inr ((ih upper above).2 path)⟩
        · rcases path with rfl | path
          · exact .inr ⟨recovered, isRoot⟩
          · rcases linked.isRoot_of_mem_arrayRoot isRoot with ⟨known, named⟩
            rcases TransGen.head'_iff.1 path with ⟨_, onward, _⟩
            exact absurd onward (not_stepsTo_of_isRoot linked unique bare acyclic known named)

end Acyclic

/-- Channels: a diamond of interfaces below a class and its subclass, an interface with a
superclass link that does not count, arrays of arrays, an unresolved type, and a recovered
class inside a method. -/
def channelCalls : List TableCall :=
  [ .declareType "java.lang.Object" .class,
    .declareType "Channel" .interface,
    .declareType "Source" .interface,
    .declareType "Sink" .interface,
    .declareType "Pipe" .class,
    .declareType "Socket" .class,
    .unresolvedType "Missing",
    .arrayOf ⟨6⟩,
    .arrayOf ⟨8⟩,
    .declareNestedType ⟨5⟩ "Mode" .enum,
    .declareMethod ⟨5⟩ "flush" [⟨8⟩] none,
    .declareLocalType ⟨11⟩ "Buffer" .class,
    .setSuperclass ⟨3⟩ ⟨6⟩,
    .addInterface ⟨3⟩ ⟨2⟩,
    .addInterface ⟨4⟩ ⟨2⟩,
    .setSuperclass ⟨5⟩ ⟨1⟩,
    .addInterface ⟨5⟩ ⟨3⟩,
    .addInterface ⟨5⟩ ⟨4⟩,
    .annotate ⟨5⟩ ⟨7⟩,
    .setSuperclass ⟨6⟩ ⟨5⟩,
    .addInterface ⟨6⟩ ⟨7⟩,
    .addInterface ⟨6⟩ ⟨4⟩,
    .setSuperclass ⟨12⟩ ⟨6⟩,
    .markRecovered ⟨12⟩ ]

def channels : Table := build channelCalls

theorem acyclic_above_channels : Acyclic channels.Above :=
  acyclic_of_bindings channels.linearParents (fun _ _ above => above)
    (fun _ _ => Above.inTable) (by decide +kernel)

example : channels.lineage ⟨6⟩ = [⟨5⟩, ⟨3⟩, ⟨2⟩, ⟨4⟩, ⟨1⟩] := by decide +kernel

end Table

end JavaInspect
