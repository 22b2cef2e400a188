import JavaInspect.Rule.Finding

/-!
# Exclusions

What a filter excludes from one unit: lines for one rule, lines for any rule, and
whole units for one or for any rule. Users write the names of rules with or without
a lead; the stores hold bare names. A span is stored as the lines that it covers,
so a reversed one leaves its rule with a set of no line. The order in which
exclusions are made does not matter.
-/

namespace JavaInspect

/-! ## Sets of lines -/

/-- Put a line into an increasing list of lines that may hold it already. -/
def insertLine (line : Nat) : List Nat → List Nat
  | [] => [line]
  | first :: rest =>
      if line < first then line :: first :: rest
      else if line = first then first :: rest
      else first :: insertLine line rest

@[simp] theorem mem_insertLine {line other : Nat} {lines : List Nat} :
    other ∈ insertLine line lines ↔ other = line ∨ other ∈ lines := by
  induction lines with
  | nil => simp [insertLine]
  | cons first rest ih =>
      rw [insertLine]
      split
      case isTrue => simp
      case isFalse =>
        split
        case isTrue equal => simp [equal]
        case isFalse => simp [ih, or_left_comm]

theorem pairwise_insertLine {line : Nat} {lines : List Nat}
    (increasing : lines.Pairwise (· < ·)) : (insertLine line lines).Pairwise (· < ·) := by
  induction lines with
  | nil => simp [insertLine]
  | cons first rest ih =>
      rw [insertLine]
      have above : ∀ later ∈ rest, first < later :=
        fun _ member => List.rel_of_pairwise_cons increasing member
      split
      case isTrue before =>
        have below : ∀ later ∈ first :: rest, line < later := by
          simp only [List.forall_mem_cons]
          exact ⟨before, fun later member => Nat.lt_trans before (above later member)⟩
        exact .cons below increasing
      case isFalse notBefore =>
        split
        case isTrue => exact increasing
        case isFalse distinct =>
          have below : ∀ later ∈ insertLine line rest, first < later := by
            simp only [mem_insertLine, forall_eq_or_imp]
            exact ⟨by omega, above⟩
          exact .cons below (ih increasing.of_cons)

/-- A set of lines. -/
structure LineSet where
  /-- The lines of the set in increasing order. -/
  toList : List Nat
  increasing : toList.Pairwise (· < ·)
deriving DecidableEq, Repr

namespace LineSet

instance : EmptyCollection LineSet := ⟨⟨[], .nil⟩⟩

instance : Inhabited LineSet := ⟨∅⟩

instance : Membership Nat LineSet := ⟨fun set line => line ∈ set.toList⟩

theorem mem_def {set : LineSet} {line : Nat} : line ∈ set ↔ line ∈ set.toList := Iff.rfl

@[simp] theorem not_mem_empty {line : Nat} : line ∉ (∅ : LineSet) := List.not_mem_nil

/-- Whether a line is in the set. -/
def contains (set : LineSet) (line : Nat) : Bool := set.toList.contains line

@[simp] theorem contains_iff {set : LineSet} {line : Nat} :
    set.contains line = true ↔ line ∈ set := List.contains_iff_mem

/-- Whether no line is in the set. -/
def isEmpty (set : LineSet) : Bool := set.toList.isEmpty

theorem isEmpty_iff {set : LineSet} : set.isEmpty = true ↔ ∀ line, line ∉ set := by
  rw [isEmpty, List.isEmpty_iff, List.eq_nil_iff_forall_not_mem]
  rfl

/-- The set with one line more. -/
def insert (set : LineSet) (line : Nat) : LineSet where
  toList := insertLine line set.toList
  increasing := pairwise_insertLine set.increasing

/-- The set with several lines more. -/
def insertAll (set : LineSet) (lines : List Nat) : LineSet :=
  lines.foldr (fun line held => held.insert line) set

@[simp] theorem mem_insertAll {set : LineSet} {lines : List Nat} {line : Nat} :
    line ∈ set.insertAll lines ↔ line ∈ lines ∨ line ∈ set := by
  induction lines with
  | nil => simp [insertAll]
  | cons first rest ih =>
      rw [List.mem_cons, or_assoc, ← ih]
      exact mem_insertLine

end LineSet

/-! ## Sets of lines by rule -/

/-- Sets of lines by the names of rules. -/
structure RuleLines where
  /-- The names that have a set, which may be empty, with their sets. -/
  entries : List (String × LineSet)
  distinct : (entries.map (·.1)).Nodup
deriving DecidableEq, Repr

namespace RuleLines

instance : EmptyCollection RuleLines := ⟨⟨[], .nil⟩⟩

instance : Inhabited RuleLines := ⟨∅⟩

/-- The set of a name. -/
def get? (sets : RuleLines) (name : String) : Option LineSet := sets.entries.lookup name

@[simp] theorem get?_empty {name : String} : (∅ : RuleLines).get? name = none := rfl

/-- Put lines into the set of a name, which is made if the name has none. -/
def addTo (name : String) (lines : List Nat) :
    List (String × LineSet) → List (String × LineSet)
  | [] => [(name, LineSet.insertAll ∅ lines)]
  | (other, set) :: rest =>
      if other = name then (other, set.insertAll lines) :: rest
      else (other, set) :: addTo name lines rest

theorem mem_names_addTo {name other : String} {lines : List Nat}
    {entries : List (String × LineSet)} :
    other ∈ (addTo name lines entries).map (·.1) ↔
      other = name ∨ other ∈ entries.map (·.1) := by
  induction entries with
  | nil => simp [addTo]
  | cons entry rest ih =>
      rw [addTo]
      split
      case isTrue same => simp [same]
      case isFalse => simp only [List.map_cons, List.mem_cons, ih, or_left_comm]

theorem nodup_addTo {name : String} {lines : List Nat} {entries : List (String × LineSet)}
    (distinct : (entries.map (·.1)).Nodup) :
    ((addTo name lines entries).map (·.1)).Nodup := by
  induction entries with
  | nil => simp [addTo]
  | cons entry rest ih =>
      obtain ⟨fresh, distinctRest⟩ := List.nodup_cons.1 distinct
      rw [addTo]
      split
      case isTrue => exact distinct
      case isFalse other =>
        refine List.nodup_cons.2 ⟨?_, ih distinctRest⟩
        rw [mem_names_addTo, not_or]
        exact ⟨other, fresh⟩

/-- The sets with lines put into that of a name. -/
def add (sets : RuleLines) (name : String) (lines : List Nat) : RuleLines where
  entries := addTo name lines sets.entries
  distinct := nodup_addTo sets.distinct

/-- Whether every set is empty. -/
def isEmpty (sets : RuleLines) : Bool := sets.entries.all (·.2.isEmpty)

end RuleLines

/-! ## Exclusions -/

/-- Everything that is excluded from one unit. -/
structure Exclusions where
  /-- Lines that are excluded for the rule of a bare name. -/
  ruleLines : RuleLines := ∅
  /-- Lines that are excluded for any rule. -/
  anyRuleLines : LineSet := ∅
  /-- Bare names of rules that are excluded from the whole unit. -/
  unitRules : List String := []
  /-- Whether every rule is excluded from the whole unit. -/
  wholeUnit : Bool := false
deriving DecidableEq, Repr, Inhabited

namespace Exclusions

/-- Exclude one line for a rule. -/
def excludeLine (exclusions : Exclusions) (written : String) (line : Nat) : Exclusions :=
  { exclusions with ruleLines := exclusions.ruleLines.add (ruleName written) [line] }

/-- Exclude the lines of a span for a rule. -/
def excludeLines (exclusions : Exclusions) (written : String) (span : Span) : Exclusions :=
  { exclusions with ruleLines := exclusions.ruleLines.add (ruleName written) span.lineNumbers }

/-- Exclude the lines of a span for a rule if a condition holds. -/
def excludeLinesIf (exclusions : Exclusions) (condition : Bool) (rule : RuleKey) (span : Span) :
    Exclusions :=
  if condition then exclusions.excludeLines rule.name span else exclusions

/-- Exclude the lines of a span for any rule. -/
def excludeLinesForAnyRule (exclusions : Exclusions) (span : Span) : Exclusions :=
  { exclusions with anyRuleLines := exclusions.anyRuleLines.insertAll span.lineNumbers }

/-- Exclude a rule from the whole unit. -/
def excludeUnit (exclusions : Exclusions) (written : String) : Exclusions :=
  { exclusions with unitRules := exclusions.unitRules.insert (ruleName written) }

/-- Exclude every rule from the whole unit. -/
def excludeUnitForAnyRule (exclusions : Exclusions) : Exclusions :=
  { exclusions with wholeUnit := true }

/-- Whether nothing is excluded. -/
def isEmpty (exclusions : Exclusions) : Bool :=
  exclusions.ruleLines.isEmpty && exclusions.anyRuleLines.isEmpty &&
    exclusions.unitRules.isEmpty && !exclusions.wholeUnit

/-- Whether a finding is excluded. -/
def excludes (exclusions : Exclusions) (finding : Finding) : Bool :=
  exclusions.wholeUnit || exclusions.unitRules.contains finding.rule.name ||
    exclusions.anyRuleLines.contains finding.line ||
    (exclusions.ruleLines.get? finding.rule.name).any (·.contains finding.line)

/-- The lines that are excluded for a rule, whole units aside, in increasing
order. -/
def linesFor (exclusions : Exclusions) (written : String) : List Nat :=
  match exclusions.ruleLines.get? (ruleName written) with
  | some lines => (exclusions.anyRuleLines.insertAll lines.toList).toList
  | none => exclusions.anyRuleLines.toList

end Exclusions

end JavaInspect
