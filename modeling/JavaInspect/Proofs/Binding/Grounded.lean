import JavaInspect.Binding.Chain
import Mathlib.Data.Finset.Card
import Mathlib.Logic.Relation

/-!
# Links without cycles

Bindings link to other bindings. A binding is grounded when every path of links
from it ends. As a table is finite, the only way not to be grounded is a path to
a cycle. A chain that starts from a grounded binding unfolds link by link.
-/

namespace JavaInspect

open Relation

variable {α : Type} {link : α → α → Prop} {start finish : α}

/-- Every path of links from `start` ends. -/
def Grounded (link : α → α → Prop) (start : α) : Prop :=
  Acc (fun upper lower => link lower upper) start

/-- No path of links comes back to where it began. -/
def Acyclic (link : α → α → Prop) : Prop :=
  ∀ start, ¬ TransGen link start start

namespace Grounded

theorem next (grounded : Grounded link start) (linked : link start finish) :
    Grounded link finish :=
  grounded.inv linked

theorem of_next (above : ∀ finish, link start finish → Grounded link finish) :
    Grounded link start :=
  Acc.intro start above

theorem reached (grounded : Grounded link start) (path : ReflTransGen link start finish) :
    Grounded link finish := by
  induction path with
  | refl => exact grounded
  | tail _ linked ih => exact ih.next linked

theorem noCycle (grounded : Grounded link start) : ¬ TransGen link start start := by
  induction grounded with
  | intro start _ ih =>
      intro cycle
      rcases TransGen.head'_iff.1 cycle with ⟨middle, linked, back⟩
      exact ih middle linked (TransGen.tail' back linked)

/-- Links that make a measure smaller end. -/
theorem of_measure (measure : α → Nat)
    (smaller : ∀ lower upper, link lower upper → measure upper < measure lower) :
    Grounded link start :=
  Subrelation.accessible (r := InvImage (· < ·) measure) (smaller _ _)
    ((InvImage.wf measure Nat.lt_wfRel.wf).apply start)

/-- Where only finitely many elements have links, a path that meets no cycle ends:
the elements that it can still reach become fewer with every link. -/
theorem of_noCycle {domain : List α} (sources : ∀ lower upper, link lower upper → lower ∈ domain)
    (noCycle : ∀ finish, ReflTransGen link start finish → ¬ TransGen link finish finish) :
    Grounded link start := by
  classical
  let reachable (from' : α) := domain.toFinset.filter (ReflTransGen link from')
  induction remaining : (reachable start).card using Nat.strong_induction_on
    generalizing start with
  | _ count ih =>
      apply Grounded.of_next
      intro upper linked
      have upward : ReflTransGen link start upper := .single linked
      have fewer : reachable upper ⊂ reachable start := by
        apply Finset.ssubset_iff_of_subset _ |>.2
        · refine ⟨start, ?_, ?_⟩
          · simpa [reachable, ReflTransGen.refl] using sources start upper linked
          · intro returns
            have back := (Finset.mem_filter.1 returns).2
            exact noCycle start .refl (TransGen.head' linked back)
        · intro finish member
          rw [Finset.mem_filter] at member ⊢
          exact ⟨member.1, upward.trans member.2⟩
      apply ih (reachable upper).card (remaining ▸ Finset.card_lt_card fewer) _ rfl
      intro finish path
      exact noCycle finish (upward.trans path)

theorem of_acyclic {domain : List α} (sources : ∀ lower upper, link lower upper → lower ∈ domain)
    (acyclic : Acyclic link) : Grounded link start :=
  of_noCycle sources fun finish _ => acyclic finish

end Grounded

/-! ## Links that are computed -/

section Computed

variable {next : α → List α} (links : ∀ lower upper, link lower upper → upper ∈ next lower)

/-- Whether every path of computed links ends within a number of links. -/
def endsWithin (next : α → List α) : Nat → α → Bool
  | 0, _ => false
  | depth + 1, start => (next start).all (endsWithin next depth)

include links in
theorem Grounded.of_endsWithin {depth : Nat} (ends : endsWithin next depth start) :
    Grounded link start := by
  induction depth generalizing start with
  | zero => cases ends
  | succ depth ih =>
      rw [endsWithin, List.all_eq_true] at ends
      apply Grounded.of_next
      intro upper linked
      exact ih (ends upper (links start upper linked))

include links in
theorem acyclic_of_endsWithin {domain : List α} {depth : Nat}
    (sources : ∀ lower upper, link lower upper → lower ∈ domain)
    (ends : domain.all (endsWithin next depth)) : Acyclic link := by
  intro start cycle
  rw [List.all_eq_true] at ends
  rcases TransGen.head'_iff.1 cycle with ⟨upper, linked, -⟩
  exact (Grounded.of_endsWithin links (ends start (sources start upper linked))).noCycle cycle

end Computed

namespace Table

variable {next : BindingId → Option BindingId}

/-- The relation that follows the links of a function. -/
def Links (next : BindingId → Option BindingId) (lower upper : BindingId) : Prop :=
  next lower = some upper

theorem acyclic_of_bindings {table : Table} {link : BindingId → BindingId → Prop}
    (steps : BindingId → List BindingId)
    (links : ∀ lower upper, link lower upper → upper ∈ steps lower)
    (inTable : ∀ lower upper, link lower upper → lower.index < table.size)
    (ends : table.bindings.all (endsWithin steps (table.size + 1))) : Acyclic link :=
  have sources (lower upper : BindingId) (linked : link lower upper) : lower ∈ table.bindings :=
    mem_bindings.2 (inTable lower upper linked)
  acyclic_of_endsWithin links sources ends

/-- Everything that has a link and can be reached from a binding is still to be
visited. -/
def AllFresh (next : BindingId → Option BindingId) (unvisited : List BindingId)
    (binding : BindingId) : Prop :=
  ∀ other, TransGen (Links next) binding other → (next other).isSome → other ∈ unvisited

/-- From a grounded binding a chain never comes back, so that leaving out the
binding that was just visited leaves out nothing that is met later. -/
theorem AllFresh.erase {unvisited : List BindingId} {binding linked : BindingId}
    (grounded : Grounded (Links next) binding) (isNext : next binding = some linked)
    (fresh : AllFresh next unvisited binding) :
    AllFresh next (unvisited.erase linked) linked := by
  intro other path hasLink
  have different : other ≠ linked := by
    intro same
    subst same
    exact (grounded.next isNext).noCycle path
  exact (List.mem_erase_of_ne different).2 (fresh other (.head isNext path) hasLink)

/-- The chain of a grounded binding does not depend on what is unvisited, as long
as nothing that it meets is left out. -/
theorem chainWithin_eq {binding : BindingId} (grounded : Grounded (Links next) binding)
    {left right : List BindingId} (leftFresh : AllFresh next left binding)
    (rightFresh : AllFresh next right binding) :
    chainWithin next left binding = chainWithin next right binding := by
  induction grounded generalizing left right with
  | intro binding above ih =>
      have grounded : Grounded (Links next) binding := Acc.intro binding above
      rw [chainWithin, chainWithin]
      cases isNext : next binding with
      | none => rfl
      | some linked =>
          -- A linked binding outside what is unvisited has no link of its own.
          have ends {unvisited : List BindingId} (fresh : AllFresh next unvisited binding)
              (visited : linked ∉ unvisited) : next linked = none := by
            by_contra hasLink
            exact visited (fresh linked (.single isNext) (Option.isSome_iff_ne_none.2 hasLink))
          have rest := ih linked isNext (leftFresh.erase grounded isNext)
            (rightFresh.erase grounded isNext)
          by_cases inLeft : linked ∈ left <;> by_cases inRight : linked ∈ right
          · simpa [inLeft, inRight] using rest
          · simp [inLeft, inRight, chainWithin, ends rightFresh inRight]
          · simp [inLeft, inRight, chainWithin, ends leftFresh inLeft]
          · simp [inLeft, inRight]

/-- The chain of a grounded binding is its link and the chain from there. -/
theorem chain_eq {table : Table} {binding : BindingId}
    (grounded : Grounded (Links next) binding)
    (sources : ∀ other, (next other).isSome → other.index < table.size) :
    table.chain next binding =
      match next binding with
      | none => []
      | some linked => linked :: table.chain next linked := by
  have fresh {start other : BindingId} (grounded : Grounded (Links next) start)
      (path : TransGen (Links next) start other) (hasLink : (next other).isSome) :
      other ∈ table.bindings.erase start := by
    have different : other ≠ start := by
      intro same
      subst same
      exact grounded.noCycle path
    exact (List.mem_erase_of_ne different).2 (mem_bindings.2 (sources other hasLink))
  rw [chain, chainWithin]
  cases isNext : next binding with
  | none => rfl
  | some linked =>
      have aboveGrounded := grounded.next isNext
      by_cases unvisited : linked ∈ table.bindings.erase binding
      · simp only [unvisited, dite_true, List.cons.injEq, true_and]
        have allFresh : AllFresh next (table.bindings.erase binding) binding :=
          fun other path hasLink => fresh grounded path hasLink
        exact chainWithin_eq aboveGrounded (allFresh.erase grounded isNext)
          fun other path hasLink => fresh aboveGrounded path hasLink
      · have ends : next linked = none := by
          by_contra hasLink
          exact unvisited (fresh grounded (.single isNext) (Option.isSome_iff_ne_none.2 hasLink))
        simp [unvisited, chain, chainWithin, ends]

/-- Neighbours in a chain are linked. -/
theorem isChain_chainWithin (unvisited : List BindingId) (binding : BindingId) :
    List.IsChain (Links next) (binding :: chainWithin next unvisited binding) := by
  induction unvisited, binding using chainWithin.induct next with
  | case1 unvisited binding isNext =>
      simp [chainWithin, isNext]
  | case2 unvisited binding linked isNext fresh ih =>
      rw [chainWithin, isNext]
      simpa [fresh, List.isChain_cons_cons, Links, isNext] using ih
  | case3 unvisited binding linked isNext visited =>
      rw [chainWithin, isNext]
      simp [visited, Links, isNext]

theorem isChain_chain (table : Table) (binding : BindingId) :
    List.IsChain (Links next) (binding :: table.chain next binding) :=
  isChain_chainWithin _ _

end Table

end JavaInspect
