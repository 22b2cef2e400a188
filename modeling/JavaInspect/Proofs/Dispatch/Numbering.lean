import JavaInspect.Proofs.Dispatch.Turns
import Mathlib.Data.List.Nodup
import Mathlib.Data.List.Perm.Basic

/-!
# Numbered reports

Every report of a dispatch has a number, its place among all reports. The numbers allow the
reports of each detector to be kept apart from those of the others: whichever detectors are
brought together later, sorting by number gives their reports in the order of the turns.
-/

namespace JavaInspect

namespace Turn

variable {count : Nat} (turns : List (Turn count))

/-- All reports with their detectors, in the order of the turns. -/
def emitted : List (Fin count × Finding) :=
  turns.flatMap fun turn => turn.reports.map (turn.slot, ·)

/-- The reports of one detector, each with its number among all reports. -/
def numbered (slot : Fin count) : List (Finding × Nat) :=
  ((emitted turns).zipIdx.filter fun entry => entry.1.1 == slot).map fun entry =>
    (entry.1.2, entry.2)

variable {turns} {turn : Turn count} {slot : Fin count}

theorem emitted_concat :
    emitted (turns ++ [turn]) = emitted turns ++ turn.reports.map (turn.slot, ·) := by
  simp [emitted]

theorem length_emitted_concat :
    (emitted (turns ++ [turn])).length = (emitted turns).length + turn.reports.length := by
  simp [emitted_concat]

theorem numbered_concat_self (turns : List (Turn count)) (turn : Turn count) :
    numbered (turns ++ [turn]) turn.slot =
      numbered turns turn.slot ++ turn.reports.zipIdx (emitted turns).length := by
  simp [numbered, emitted_concat, List.zipIdx_append, List.zipIdx_map, List.filter_map,
    Function.comp_def]

theorem numbered_concat_of_ne (other : turn.slot ≠ slot) :
    numbered (turns ++ [turn]) slot = numbered turns slot := by
  simp [numbered, emitted_concat, List.zipIdx_append, List.zipIdx_map, List.filter_map,
    Function.comp_def, other]

theorem numbered_concat_of_reports_nil (silent : turn.reports = []) :
    numbered (turns ++ [turn]) slot = numbered turns slot := by
  simp [numbered, emitted_concat, silent]

/-! ### Numbered reports brought together -/

/-- The entries of a list that have one of some keys, taken key by key. -/
theorem flatMap_filter_perm {α β : Type} [DecidableEq β] (key : α → β) (entries : List α)
    {keys : List β} (distinct : keys.Nodup) :
    (keys.flatMap fun wanted => entries.filter fun entry => key entry == wanted).Perm
      (entries.filter fun entry => keys.contains (key entry)) := by
  induction keys with
  | nil => simp
  | cons wanted rest ih =>
      obtain ⟨unlisted, distinct⟩ := List.nodup_cons.mp distinct
      have split := List.filter_append_perm (fun entry => key entry == wanted)
        (entries.filter fun entry => (wanted :: rest).contains (key entry))
      have first : (entries.filter fun entry => (wanted :: rest).contains (key entry)).filter
            (fun entry => key entry == wanted) =
          entries.filter fun entry => key entry == wanted := by
        rw [List.filter_filter]
        refine List.filter_congr fun entry _ => ?_
        by_cases here : key entry = wanted <;> simp [here]
      have others : (entries.filter fun entry => (wanted :: rest).contains (key entry)).filter
            (fun entry => !(key entry == wanted)) =
          entries.filter fun entry => rest.contains (key entry) := by
        rw [List.filter_filter]
        refine List.filter_congr fun entry _ => ?_
        by_cases here : key entry = wanted
        · simp [here, unlisted]
        · simp [here]
      rw [first, others] at split
      rw [List.flatMap_cons]
      exact ((ih distinct).append_left _).trans split

/-- The reports of some detectors, with their numbers, in the order of the turns. -/
def numberedOf (turns : List (Turn count)) (slots : List (Fin count)) : List (Finding × Nat) :=
  ((emitted turns).zipIdx.filter fun entry => slots.contains entry.1.1).map fun entry =>
    (entry.1.2, entry.2)

theorem flatMap_numbered_perm (turns : List (Turn count)) {slots : List (Fin count)}
    (distinct : slots.Nodup) : (slots.flatMap (numbered turns)).Perm (numberedOf turns slots) := by
  have together : slots.flatMap (numbered turns) =
      (slots.flatMap fun slot => (emitted turns).zipIdx.filter fun entry =>
        entry.1.1 == slot).map fun entry => (entry.1.2, entry.2) := by
    rw [List.map_flatMap]
    rfl
  rw [together]
  exact (flatMap_filter_perm _ _ distinct).map _

theorem pairwise_numberedOf (turns : List (Turn count)) (slots : List (Fin count)) :
    (numberedOf turns slots).Pairwise fun first second => first.2 < second.2 := by
  have all : (emitted turns).zipIdx.Pairwise fun first second => first.2 < second.2 := by
    rw [← List.pairwise_map, List.zipIdx_map_snd]
    exact List.pairwise_lt_range' 1
  rw [numberedOf, List.pairwise_map]
  exact all.filter _

/-- Sorting by number brings the reports of some detectors into the order of the turns,
whichever order they are in. -/
theorem mergeSort_eq_numberedOf {turns : List (Turn count)} {slots : List (Fin count)}
    {entries : List (Finding × Nat)} (perm : entries.Perm (numberedOf turns slots)) :
    entries.mergeSort (fun first second => first.2 ≤ second.2) = numberedOf turns slots := by
  have increasing := pairwise_numberedOf turns slots
  have distinct : ((numberedOf turns slots).map (·.2)).Nodup := by
    rw [List.Nodup, List.pairwise_map]
    exact increasing.imp fun lt => Nat.ne_of_lt lt
  have sorted : (entries.mergeSort fun first second => first.2 ≤ second.2).Pairwise
      fun first second => first.2 ≤ second.2 := by
    have trans : ∀ first second third : Finding × Nat, decide (first.2 ≤ second.2) = true →
        decide (second.2 ≤ third.2) = true → decide (first.2 ≤ third.2) = true := by
      simp only [decide_eq_true_eq]
      exact fun _ _ _ => Nat.le_trans
    have total : ∀ first second : Finding × Nat,
        (decide (first.2 ≤ second.2) || decide (second.2 ≤ first.2)) = true := by
      simp only [Bool.or_eq_true, decide_eq_true_eq]
      exact fun first second => Nat.le_total first.2 second.2
    simpa using List.pairwise_mergeSort trans total entries
  have same := (List.mergeSort_perm entries fun first second => first.2 ≤ second.2).trans perm
  refine List.Perm.eq_of_pairwise ?_ sorted (increasing.imp fun lt => Nat.le_of_lt lt) same
  intro first second member member' le le'
  exact List.inj_on_of_nodup_map distinct (same.subset member) member' (Nat.le_antisymm le le')

theorem map_snd_filter_emitted (turns : List (Turn count)) (slots : List (Fin count)) :
    ((emitted turns).filter fun entry => slots.contains entry.1).map (·.2) =
      (turns.filter fun turn => slots.contains turn.slot).flatMap reports := by
  induction turns with
  | nil => rfl
  | cons turn rest ih =>
      have first : emitted (turn :: rest) = turn.reports.map (turn.slot, ·) ++ emitted rest := rfl
      rw [first, List.filter_append, List.map_append, ih, List.filter_cons]
      by_cases listed : turn.slot ∈ slots <;> simp [List.filter_map, Function.comp_def, listed]

/-- Without their numbers they are the reports at the turns of those detectors. -/
theorem map_fst_numberedOf (turns : List (Turn count)) (slots : List (Fin count)) :
    (numberedOf turns slots).map (·.1) =
      (turns.filter fun turn => slots.contains turn.slot).flatMap reports := by
  rw [← map_snd_filter_emitted]
  conv_rhs => rw [← List.zipIdx_map_fst 0 (emitted turns), List.filter_map, List.map_map]
  rw [numberedOf, List.map_map]
  rfl

end Turn

end JavaInspect
