import JavaInspect.Proofs.Hierarchy.Reach
import JavaInspect.Proofs.Semantics.Requests

/-!
# Histories of requests

Requests follow each other through one cache. Whatever the history, it leaves a valid
cache in which nothing is being computed. In an orderly table the answer to a request is
therefore the same after every history, and consumers that share a cache do not notice
each other.
-/

namespace JavaInspect

open Relation Cache Query

namespace Table

variable {table : Table}

/-- The array types of a built table are younger than their component types. -/
theorem WellLinked.arraysEnd (linked : table.WellLinked) : table.ArraysEnd := by
  intro binding
  refine .of_measure BindingId.index fun array component contains => ?_
  rw [Contains, Links, component?] at contains
  split at contains
  case isTrue => exact linked.componentOlder array component contains
  case isFalse => cases contains

theorem Contains.inTable {array component : BindingId} (contains : table.Contains array component) :
    array.index < table.size :=
  inTable_of_component (Option.isSome_of_eq_some contains)

theorem Owns.inTable {declared owner : BindingId} (owns : table.Owns declared owner) :
    declared.index < table.size := by
  by_contra outside
  rw [Owns, Links, entry_of_outside outside] at owns
  cases owns

theorem arraysEnd_of_acyclic (acyclic : Acyclic table.Contains) : table.ArraysEnd :=
  fun _ => .of_acyclic (fun _ _ contains => mem_bindings.2 (Contains.inTable contains)) acyclic

theorem orderly_of_acyclic (owners : Acyclic table.Owns) (supertypes : Acyclic table.Above) :
    table.Orderly := by
  constructor
  case owners =>
    exact fun _ => .of_acyclic (fun _ _ owns => mem_bindings.2 (Owns.inTable owns)) owners
  case supertypes => exact fun _ => grounded_of_noCycle fun cyclic _ => supertypes cyclic

theorem acyclic_owns_channels : Acyclic channels.Owns :=
  acyclic_of_bindings (fun declared => (channels.entry declared).owner.toList)
    (by simp [Links]) (fun _ _ => Owns.inTable) (by decide +kernel)

end Table

namespace Request

variable {table : Table} {before : Cache}

/-! ## Definitions -/

/-- Make requests one after another. -/
def replay (table : Table) (history : List Request) : Query (List Answer) :=
  history.mapM (ask table)

/-- The cache that a history of requests leaves behind. -/
def cacheAfter (table : Table) (history : List Request) : Cache :=
  (replay table history {}).2

section Consumers

variable {Consumer Item : Type}

/-- Serve the requests of several consumers in the order of a schedule. -/
def serve (table : Table) (schedule : List (Consumer × Request)) :
    Query (List (Consumer × Answer)) :=
  schedule.mapM fun turn => (turn.1, ·) <$> turn.2.ask table

/-- What belongs to one consumer, in order. -/
def shareOf [DecidableEq Consumer] (consumer : Consumer) (items : List (Consumer × Item)) :
    List Item :=
  (items.filter (·.1 = consumer)).map (·.2)

end Consumers

/-! ## Whole histories -/

/-- What each question of a sequence means, the whole sequence means. -/
theorem yields_sequence {Item Shown : Type} {question : Item → Query Shown} {means : Item → Shown}
    {items : List Item} (valid : before.Valid table) (idle : Idle before)
    (asked : ∀ item middle, middle.Valid table → Idle middle →
      Yields table table.Explains (question item) middle fun answer _ =>
        table.Orderly → answer = means item) :
    Yields table table.Explains (items.mapM question) before fun answers _ =>
      table.Orderly → answers = items.map means := by
  have answered := Yields.mapM (fun _ answer item => table.Orderly → answer = means item)
    (fun _ isAnswer => isAnswer) valid fun item (_ : item ∈ items) middle leads =>
      asked item middle leads.valid (idle.later leads.toGrows)
  apply answered.imp
  intro answers after _ correspond orderly
  rw [← List.forall₂_eq_eq_eq, List.forall₂_map_right_iff]
  exact correspond.imp fun _ _ isAnswer => isAnswer orderly

theorem yields_replay (arraysEnd : table.ArraysEnd) (valid : before.Valid table)
    (idle : Idle before) (history : List Request) :
    Yields table table.Explains (replay table history) before fun answers _ =>
      table.Orderly → answers = history.map (meaning table) :=
  yields_sequence valid idle fun request _ valid idle => request.yields_ask arraysEnd valid idle

theorem yields_serve {Consumer : Type} (arraysEnd : table.ArraysEnd) (valid : before.Valid table)
    (idle : Idle before) (schedule : List (Consumer × Request)) :
    Yields table table.Explains (serve table schedule) before fun answers _ =>
      table.Orderly → answers = schedule.map fun turn => (turn.1, turn.2.meaning table) := by
  apply yields_sequence valid idle
  intro turn middle valid idle
  apply (turn.2.yields_ask arraysEnd valid idle).map
  intro answer after _ isAnswer orderly
  rw [isAnswer orderly]

theorem leads_cacheAfter (arraysEnd : table.ArraysEnd) (history : List Request) :
    Leads table table.Explains {} (cacheAfter table history) :=
  (yields_replay arraysEnd .empty .empty history).1

theorem valid_cacheAfter (arraysEnd : table.ArraysEnd) (history : List Request) :
    (cacheAfter table history).Valid table :=
  (leads_cacheAfter arraysEnd history).valid

theorem idle_cacheAfter (arraysEnd : table.ArraysEnd) (history : List Request) :
    Idle (cacheAfter table history) :=
  Idle.empty.later (leads_cacheAfter arraysEnd history).toGrows

/-! ## Histories that leave no trace -/

/-- An orderly table determines the answer to a request after any history. -/
theorem answer_cacheAfter (arraysEnd : table.ArraysEnd) (orderly : table.Orderly)
    (history : List Request) (request : Request) :
    (request.ask table (cacheAfter table history)).1 = request.meaning table := by
  have valid := valid_cacheAfter arraysEnd history
  have idle := idle_cacheAfter arraysEnd history
  exact (request.yields_ask arraysEnd valid idle).2 orderly

theorem fault_cacheAfter (arraysEnd : table.ArraysEnd) (orderly : table.Orderly)
    (history : List Request) : (cacheAfter table history).fault = none := by
  cases isFault : (cacheAfter table history).fault with
  | none => rfl
  | some fault =>
      rcases (leads_cacheAfter arraysEnd history).blamed fault isFault with already | isExplained
      · cases already
      · exact absurd isExplained (orderly.explainsNothing fault)

/-- What a consumer is answered depends only on what it asks. -/
theorem shareOf_serve {Consumer : Type} [DecidableEq Consumer] (arraysEnd : table.ArraysEnd)
    (orderly : table.Orderly) (consumer : Consumer) (schedule : List (Consumer × Request)) :
    shareOf consumer (serve table schedule {}).1 =
      (shareOf consumer schedule).map (meaning table) := by
  rw [(yields_serve arraysEnd .empty .empty schedule).2 orderly, shareOf, shareOf]
  simp [List.filter_map, Function.comp_def]

/-- Caching is unobservable where owners, arrays and supertypes do not run in circles. The
answer to a request is the same after every history as on a new cache, no fault is
recorded, and consumers whose requests are interleaved in another way get the same
answers. -/
theorem caching_unobservable (owners : Acyclic table.Owns) (arrays : Acyclic table.Contains)
    (supertypes : Acyclic table.Above) :
    (∀ history (request : Request),
      (request.ask table (cacheAfter table history)).1 = (request.ask table {}).1) ∧
    (∀ history, (cacheAfter table history).fault = none) ∧
    ∀ {Consumer : Type} [DecidableEq Consumer] (first second : List (Consumer × Request)),
      (∀ consumer, shareOf consumer first = shareOf consumer second) →
      ∀ consumer, shareOf consumer (serve table first {}).1 =
        shareOf consumer (serve table second {}).1 := by
  have arraysEnd := Table.arraysEnd_of_acyclic arrays
  have orderly := Table.orderly_of_acyclic owners supertypes
  refine ⟨?_, fault_cacheAfter arraysEnd orderly, ?_⟩
  · intro history request
    rw [answer_cacheAfter arraysEnd orderly history request]
    exact (answer_cacheAfter arraysEnd orderly [] request).symm
  · intro Consumer _ first second sameShares consumer
    rw [shareOf_serve arraysEnd orderly, shareOf_serve arraysEnd orderly, sameShares consumer]

theorem caching_unobservable_channels :
    let matcher : MethodMatcher := { owners := ["Channel"], ownerMatch := .inherited }
    let history : List Request :=
      [.superTypes ⟨6⟩, .metadata ⟨5⟩, .outermostClass ⟨12⟩, .typeOf ⟨9⟩]
    let earlier : List (Bool × Request) :=
      [(true, .superTypes ⟨5⟩), (true, .isSubtypeOf ⟨9⟩ "java.lang.Object"),
        (false, .memberSymbols ⟨5⟩), (false, .matchesBinding matcher (some ⟨11⟩))]
    let later : List (Bool × Request) :=
      [(false, .memberSymbols ⟨5⟩), (true, .superTypes ⟨5⟩),
        (false, .matchesBinding matcher (some ⟨11⟩)), (true, .isSubtypeOf ⟨9⟩ "java.lang.Object")]
    ((Request.superTypes ⟨5⟩).ask Table.channels (cacheAfter Table.channels history)).1 =
        ((Request.superTypes ⟨5⟩).ask Table.channels {}).1 ∧
      (cacheAfter Table.channels history).fault = none ∧
      shareOf true (serve Table.channels earlier {}).1 =
        shareOf true (serve Table.channels later {}).1 := by
  intro matcher history earlier later
  have owners : Acyclic Table.channels.Owns :=
    Table.acyclic_of_bindings (fun declared => (Table.channels.entry declared).owner.toList)
      (by simp [Table.Links]) (fun _ _ => Table.Owns.inTable) (by decide +kernel)
  have arrays : Acyclic Table.channels.Contains :=
    Table.acyclic_of_bindings (fun array => (Table.channels.component? array).toList)
      (by simp [Table.Links]) (fun _ _ => Table.Contains.inTable) (by decide +kernel)
  have supertypes : Acyclic Table.channels.Above :=
    Table.acyclic_of_bindings Table.channels.linearParents
      (fun _ _ above => above) (fun _ _ => Table.Above.inTable) (by decide +kernel)
  rcases caching_unobservable owners arrays supertypes with ⟨sameAnswers, noFault, sameShares⟩
  refine ⟨sameAnswers history (.superTypes ⟨5⟩), noFault history, ?_⟩
  apply sameShares earlier later
  intro consumer
  cases consumer <;> rfl

end Request

end JavaInspect
