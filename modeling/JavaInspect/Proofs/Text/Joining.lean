import JavaInspect.Span
import Mathlib.Order.MinMax

/-!
# Joined spans

The join of two spans begins where the earlier of them begins and stops where the later of them
stops. So it is the least span around both, wherever the two lie and even if one of them stops
before it begins.

Places decide which ends a join takes, and the byte offsets come along with them. If two spans
begin at one place with different offsets, the join depends on the order of its arguments. In one
text a place has one offset, and offsets grow with places. However spans of one text are joined,
the ends of the result are ends of theirs. So its places fix its offsets too, and the laws of
joining follow from those of minima and maxima.
-/

namespace JavaInspect

namespace Position

instance : LinearOrder Position where
  le_refl place := by simp [le_def]
  le_trans first second third := by
    simp only [le_def]
    omega
  le_antisymm first second := by
    cases first
    cases second
    simp only [le_def, mk.injEq]
    omega
  le_total first second := by
    simp only [le_def]
    omega
  toDecidableLE := inferInstance
  toDecidableEq := inferInstance

theorem line_mono : Monotone line := by
  intro first second ordered
  rw [le_def] at ordered
  omega

end Position

namespace Span

variable {first second third inner outer span : Span} {spans : List Span} {line : Nat}

/-! ## The ends of a span -/

/-- Where a span begins, with the byte offset there. -/
def opening (span : Span) : Position × Nat := (span.start, span.startByte)

/-- Where a span stops, with the byte offset there. -/
def closing (span : Span) : Position × Nat := (span.stop, span.endByte)

theorem eq_of_ends (sameOpening : first.opening = second.opening)
    (sameClosing : first.closing = second.closing) : first = second := by
  cases first
  cases second
  simp_all [opening, closing, start, stop]

theorem opening_join : (first.join second).opening =
    if first.start ≤ second.start then first.opening else second.opening := by
  by_cases ordered : first.start ≤ second.start
  · simp only [join, if_pos ordered]
    rfl
  · simp only [join, if_neg ordered]
    rfl

/-- Of spans that stop at one place the join stops as the one that begins later. -/
theorem closing_join : (first.join second).closing =
    if first.start ≤ second.start then
      if first.stop ≤ second.stop then second.closing else first.closing
    else if second.stop ≤ first.stop then first.closing else second.closing := by
  by_cases ordered : first.start ≤ second.start
  · simp only [join, if_pos ordered, ← apply_ite closing]
    rfl
  · simp only [join, if_neg ordered, ← apply_ite closing]
    rfl

theorem start_join : (first.join second).start = min first.start second.start := by
  change (first.join second).opening.1 = _
  rw [opening_join, min_def, apply_ite Prod.fst]
  rfl

theorem stop_join : (first.join second).stop = max first.stop second.stop := by
  change (first.join second).closing.1 = _
  rw [closing_join]
  split
  · rw [max_def, apply_ite Prod.fst]
    rfl
  · rw [max_comm, max_def, apply_ite Prod.fst]
    rfl

theorem startLine_join : (first.join second).startLine = min first.startLine second.startLine := by
  change (first.join second).start.line = _
  rw [start_join, Position.line_mono.map_min]
  rfl

theorem endLine_join : (first.join second).endLine = max first.endLine second.endLine := by
  change (first.join second).stop.line = _
  rw [stop_join, Position.line_mono.map_max]
  rfl

@[simp] theorem join_self : first.join first = first := by
  apply eq_of_ends
  case sameOpening => rw [opening_join, ite_self]
  case sameClosing => rw [closing_join, ite_self, ite_self]

/-! ## What a span covers -/

/-- A span begins no earlier than another and stops no later. This says more than that the other
one contains its lines: a reversed span has no lines. -/
def Within (inner outer : Span) : Prop :=
  outer.start ≤ inner.start ∧ inner.stop ≤ outer.stop

theorem Within.refl (span : Span) : span.Within span := ⟨le_rfl, le_rfl⟩

theorem Within.containsLine (isWithin : inner.Within outer)
    (contained : inner.containsLine line = true) : outer.containsLine line = true := by
  rw [containsLine_iff] at contained ⊢
  exact ⟨(Position.line_mono isWithin.1).trans contained.1,
    contained.2.trans (Position.line_mono isWithin.2)⟩

/-- The join is within just the spans that are around both. -/
theorem join_within_iff :
    (first.join second).Within outer ↔ first.Within outer ∧ second.Within outer := by
  rw [Within, start_join, stop_join, le_min_iff, max_le_iff]
  exact and_and_and_comm

/-- A span that contains the lines of two others contains the lines between them as well. -/
theorem containsLine_of_join (firstOrdered : first.isReversed = false)
    (secondOrdered : second.isReversed = false)
    (contains : ∀ line, first.containsLine line = true ∨ second.containsLine line = true →
      outer.containsLine line = true)
    (joined : (first.join second).containsLine line = true) : outer.containsLine line = true := by
  rw [isReversed, decide_eq_false_iff_not, Nat.not_lt] at firstOrdered secondOrdered
  simp only [containsLine_iff] at contains
  have firstStart := contains first.startLine (.inl ⟨le_rfl, firstOrdered⟩)
  have firstEnd := contains first.endLine (.inl ⟨firstOrdered, le_rfl⟩)
  have secondStart := contains second.startLine (.inr ⟨le_rfl, secondOrdered⟩)
  have secondEnd := contains second.endLine (.inr ⟨secondOrdered, le_rfl⟩)
  rw [containsLine_iff, startLine_join, endLine_join] at joined
  rw [containsLine_iff]
  omega

/-! ## Spans of one text -/

/-- Both ends of a span. -/
def ends (span : Span) : List (Position × Nat) := [span.opening, span.closing]

/-- Byte offsets of spans go with places: an end has no smaller offset than an end that comes
before it or that stands at the same place. -/
def Consistent (spans : List Span) : Prop :=
  ∀ one ∈ spans.flatMap ends, ∀ other ∈ spans.flatMap ends, one.1 ≤ other.1 → one.2 ≤ other.2

instance : Decidable (Consistent spans) :=
  inferInstanceAs (Decidable (∀ one ∈ spans.flatMap ends, ∀ other ∈ spans.flatMap ends,
    one.1 ≤ other.1 → one.2 ≤ other.2))

/-- A span that comes of joining spans. -/
inductive JoinOf (spans : List Span) : Span → Prop where
  | alone {span : Span} (isOne : span ∈ spans) : JoinOf spans span
  | join {first second : Span} (isFirst : JoinOf spans first) (isSecond : JoinOf spans second) :
      JoinOf spans (first.join second)

@[simp] theorem mem_ends {one : Position × Nat} :
    one ∈ span.ends ↔ one = span.opening ∨ one = span.closing := by
  simp [ends]

theorem ends_join_subset : (first.join second).ends ⊆ first.ends ++ second.ends := by
  intro one isEnd
  rw [mem_ends] at isEnd
  rcases isEnd with rfl | rfl
  · rw [opening_join]
    split <;> simp
  · rw [closing_join]
    split <;> split <;> simp

/-- Joining makes no new ends. -/
theorem JoinOf.ends_subset (isJoin : JoinOf spans span) : span.ends ⊆ spans.flatMap ends := by
  induction isJoin with
  | alone isOne => exact fun one isEnd => List.mem_flatMap.2 ⟨_, isOne, isEnd⟩
  | join _ _ firstIh secondIh =>
      exact List.Subset.trans ends_join_subset (List.append_subset.2 ⟨firstIh, secondIh⟩)

theorem JoinOf.opening_mem (isJoin : JoinOf spans span) : span.opening ∈ spans.flatMap ends :=
  isJoin.ends_subset (mem_ends.2 (.inl rfl))

theorem JoinOf.closing_mem (isJoin : JoinOf spans span) : span.closing ∈ spans.flatMap ends :=
  isJoin.ends_subset (mem_ends.2 (.inr rfl))

namespace Consistent

variable (consistent : Consistent spans)

section Ends

variable {one other taken : Position × Nat} (isOne : one ∈ spans.flatMap ends)
  (isOther : other ∈ spans.flatMap ends) (isTaken : taken ∈ spans.flatMap ends)

include consistent isOne isOther

theorem offset_eq (same : one.1 = other.1) : one.2 = other.2 :=
  le_antisymm (consistent one isOne other isOther same.le)
    (consistent other isOther one isOne same.ge)

include isTaken

theorem offset_min (smaller : taken.1 = min one.1 other.1) : taken.2 = min one.2 other.2 := by
  rcases le_total one.1 other.1 with ordered | ordered
  · rw [min_eq_left (consistent one isOne other isOther ordered)]
    exact consistent.offset_eq isTaken isOne (smaller.trans (min_eq_left ordered))
  · rw [min_eq_right (consistent other isOther one isOne ordered)]
    exact consistent.offset_eq isTaken isOther (smaller.trans (min_eq_right ordered))

theorem offset_max (larger : taken.1 = max one.1 other.1) : taken.2 = max one.2 other.2 := by
  rcases le_total one.1 other.1 with ordered | ordered
  · rw [max_eq_right (consistent one isOne other isOther ordered)]
    exact consistent.offset_eq isTaken isOther (larger.trans (max_eq_right ordered))
  · rw [max_eq_left (consistent other isOther one isOne ordered)]
    exact consistent.offset_eq isTaken isOne (larger.trans (max_eq_left ordered))

end Ends

variable (isFirst : JoinOf spans first) (isSecond : JoinOf spans second)
  (isThird : JoinOf spans third)

include consistent isFirst isSecond

/-- Places fix the offsets of whatever is joined. -/
theorem eq_of_places (sameStart : first.start = second.start)
    (sameStop : first.stop = second.stop) : first = second :=
  eq_of_ends
    (Prod.ext sameStart (consistent.offset_eq isFirst.opening_mem isSecond.opening_mem sameStart))
    (Prod.ext sameStop (consistent.offset_eq isFirst.closing_mem isSecond.closing_mem sameStop))

theorem startByte_join : (first.join second).startByte = min first.startByte second.startByte :=
  consistent.offset_min isFirst.opening_mem isSecond.opening_mem
    (isFirst.join isSecond).opening_mem start_join

theorem endByte_join : (first.join second).endByte = max first.endByte second.endByte :=
  consistent.offset_max isFirst.closing_mem isSecond.closing_mem
    (isFirst.join isSecond).closing_mem stop_join

/-- A span that is within another in lines and columns is so in bytes. -/
theorem within_bytes (isWithin : first.Within second) :
    second.startByte ≤ first.startByte ∧ first.endByte ≤ second.endByte :=
  ⟨consistent _ isSecond.opening_mem _ isFirst.opening_mem isWithin.1,
    consistent _ isFirst.closing_mem _ isSecond.closing_mem isWithin.2⟩

theorem join_comm : first.join second = second.join first := by
  apply consistent.eq_of_places (.join isFirst isSecond) (.join isSecond isFirst)
  case sameStart => rw [start_join, start_join, min_comm]
  case sameStop => rw [stop_join, stop_join, max_comm]

include isThird

theorem join_assoc : (first.join second).join third = first.join (second.join third) := by
  apply consistent.eq_of_places (.join (.join isFirst isSecond) isThird)
    (.join isFirst (.join isSecond isThird))
  case sameStart => simp only [start_join, min_assoc]
  case sameStop => simp only [stop_join, max_assoc]

end Consistent

/-- The join of two spans begins at the smaller start and stops at the larger end. It contains the
lines of both, and it is within just the spans that are around both; if neither is reversed, this
holds of lines too. The join of a span with itself is that span. Where byte offsets go with places,
joining is commutative and associative, the join has the smaller offset at its start and the larger
one at its end, and a span around both spans is around the join in bytes too. -/
theorem join_least_around (first second third : Span) :
    ((first.join second).start = min first.start second.start ∧
      (first.join second).stop = max first.stop second.stop) ∧
    (∀ line, first.containsLine line = true ∨ second.containsLine line = true →
      (first.join second).containsLine line = true) ∧
    (∀ outer : Span, (first.join second).Within outer ↔
      first.Within outer ∧ second.Within outer) ∧
    (first.isReversed = false → second.isReversed = false → ∀ outer : Span,
      (∀ line, first.containsLine line = true ∨ second.containsLine line = true →
        outer.containsLine line = true) →
      ∀ line, (first.join second).containsLine line = true → outer.containsLine line = true) ∧
    first.join first = first ∧
    (Consistent [first, second, third] →
      first.join second = second.join first ∧
      (first.join second).join third = first.join (second.join third) ∧
      (first.join second).startByte = min first.startByte second.startByte ∧
      (first.join second).endByte = max first.endByte second.endByte ∧
      (first.Within third → second.Within third →
        third.startByte ≤ (first.join second).startByte ∧
          (first.join second).endByte ≤ third.endByte)) := by
  have aroundBoth := join_within_iff.1 (Within.refl (first.join second))
  refine ⟨⟨start_join, stop_join⟩, ?lines, fun _ => join_within_iff, ?ordered, join_self,
    ?offsets⟩
  case lines =>
    rintro line (contained | contained)
    · exact aroundBoth.1.containsLine contained
    · exact aroundBoth.2.containsLine contained
  case ordered =>
    intro firstOrdered secondOrdered outer contains line
    exact containsLine_of_join firstOrdered secondOrdered contains
  case offsets =>
    intro consistent
    have isFirst : JoinOf [first, second, third] first := .alone (by simp)
    have isSecond : JoinOf [first, second, third] second := .alone (by simp)
    have isThird : JoinOf [first, second, third] third := .alone (by simp)
    refine ⟨consistent.join_comm isFirst isSecond,
      consistent.join_assoc isFirst isSecond isThird, consistent.startByte_join isFirst isSecond,
      consistent.endByte_join isFirst isSecond, ?around⟩
    intro firstWithin secondWithin
    have isWithin := join_within_iff.2 ⟨firstWithin, secondWithin⟩
    exact consistent.within_bytes (isFirst.join isSecond) isThird isWithin

/-- The name of a method with the header `int area(int width, int height)`, which goes on to the
next line behind the comma. -/
def areaName : Span := ⟨4, 8, 1, 5, 1, 9⟩

/-- The parameter list of this method, on two lines. -/
def areaParameters : Span := ⟨8, 35, 1, 9, 2, 16⟩

/-- The header from its first word on. -/
def areaHeader : Span := ⟨0, 35, 1, 1, 2, 16⟩

/-- From the second parameter back to the first. -/
def areaReversed : Span := ⟨28, 13, 2, 9, 1, 14⟩

theorem join_least_around_area :
    Consistent [areaName, areaParameters, areaHeader] ∧
    Consistent [areaParameters, areaReversed, areaName] ∧
    areaName.isReversed = false ∧ areaParameters.isReversed = false ∧
    areaReversed.isReversed = true ∧
    areaName.Within areaHeader ∧ areaParameters.Within areaHeader ∧
    (areaName.join areaParameters).start = areaName.start ∧
    (areaName.join areaParameters).endByte = 35 ∧
    (∀ line, (areaName.join areaParameters).containsLine line = true →
      areaHeader.containsLine line = true) ∧
    areaHeader.startByte ≤ (areaName.join areaParameters).startByte ∧
    areaParameters.join areaReversed = areaReversed.join areaParameters ∧
    (areaParameters.join areaReversed).join areaName =
      areaParameters.join (areaReversed.join areaName) := by
  have consistent : Consistent [areaName, areaParameters, areaHeader] := by decide
  have alsoReversed : Consistent [areaParameters, areaReversed, areaName] := by decide
  have nameWithin : areaName.Within areaHeader := ⟨by decide, by decide⟩
  have parametersWithin : areaParameters.Within areaHeader := ⟨by decide, by decide⟩
  obtain ⟨⟨starts, -⟩, -, -, lines, -, offsets⟩ :=
    join_least_around areaName areaParameters areaHeader
  obtain ⟨-, -, -, endByte, around⟩ := offsets consistent
  obtain ⟨-, -, -, -, -, laws⟩ := join_least_around areaParameters areaReversed areaName
  obtain ⟨commutes, associates, -⟩ := laws alsoReversed
  refine ⟨consistent, alsoReversed, by decide, by decide, by decide, nameWithin, parametersWithin,
    ?start, ?stop, ?lines, (around nameWithin parametersWithin).1, commutes, associates⟩
  case start => exact starts.trans (min_eq_left (by decide))
  case stop => exact endByte.trans (by decide)
  case lines =>
    apply lines (by decide) (by decide)
    rintro line (contained | contained)
    · exact nameWithin.containsLine contained
    · exact parametersWithin.containsLine contained

/-- Offsets that do not go with places: the order of the spans decides which of them is kept. -/
example : (⟨0, 2, 1, 1, 1, 3⟩ : Span).join ⟨7, 9, 1, 1, 1, 3⟩ = ⟨0, 9, 1, 1, 1, 3⟩ ∧
    (⟨7, 9, 1, 1, 1, 3⟩ : Span).join ⟨0, 2, 1, 1, 1, 3⟩ = ⟨7, 2, 1, 1, 1, 3⟩ := by decide

end Span

end JavaInspect
