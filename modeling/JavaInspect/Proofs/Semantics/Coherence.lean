import JavaInspect.Proofs.Binding.Assembling
import JavaInspect.Proofs.Hierarchy.Reach
import JavaInspect.Proofs.Semantics.Enclosures

/-!
# Coherent tables

An assembled table can be relied on: its indexes hand out what they are asked for and go on doing
so, links lead to older bindings, members belong to those that list them, and no call changes
what it is not given. The walks outwards never meet a circle there.
-/

namespace JavaInspect

open Relation

namespace Table

variable {table before after : Table} {binding holder : BindingId} {key : Key}
  {call again : TableCall}

/-- What may be relied on in a table that calls have assembled. -/
structure Coherent (table : Table) : Prop where
  /-- Indexes hand out what they were asked for: a type of the qualified name, an array of the
  component, and so on. -/
  retrieves : table.Retrieves
  /-- What was handed out for a key is handed out again, whatever was called in between, and
  asking for it changes nothing. -/
  canonical : ∀ (call : TableCall) key, call.Fits table → call.key? table = some key →
    ∀ after, (call.apply table).Later after → ∀ again : TableCall, again.key? after = some key →
      again.answer after = call.answer table ∧ again.apply after = after
  /-- Owners, components, parameter types and declared types are older. -/
  older : table.OriginsOlder
  ownersEnd : ∀ binding, Grounded table.Owns binding
  componentsEnd : ∀ binding, Grounded (Links fun array => (table.entry array).element) binding
  /-- Whatever a context is asked, it does not report that owners run in a circle. -/
  noOwnerCycle : ∀ uses declared name,
    (Use.after table {} uses).fault ≠ some (.ownerCycle declared name)
  listsOwn : table.ListsOwn
  /-- A new member is listed last with its owner, and stays listed. -/
  listed : ∀ (call : TableCall) holder, call.Fits table → call.memberOf? table = some holder →
    ∃ member, call.answer table = some member ∧ (call.apply table).entry holder =
        { table.entry holder with members := (table.entry holder).members ++ [member] } ∧
      ∀ after : Table, (call.apply table).Later after →
        member ∈ (after.entry holder).members
  /-- A call changes no entry but that of one of its arguments, and there neither what the
  declaration settled nor the members that are listed already. -/
  unchanged : ∀ call : TableCall, call.Fits table → table.Extends (call.apply table) ∧
    (∀ target, call.target? = some target → target ∈ call.arguments) ∧
    ∀ binding, binding.index < table.size → call.target? ≠ some binding →
      (call.apply table).entry binding = table.entry binding
  /-- Loading a class path is made of such calls. -/
  loads : ∀ path, table.Later (table.load path)

theorem mem_arguments_of_target {target : BindingId} (isTarget : call.target? = some target) :
    target ∈ call.arguments := by
  cases call <;> cases isTarget <;> simp [TableCall.arguments]

theorem holder_mem_arguments (declares : call.memberOf? table = some holder) :
    holder ∈ call.arguments := by
  cases call with
  | declareMethod | declareConstructor | declareField =>
      cases declares
      simp [TableCall.arguments]
  | declareNestedType =>
      rw [TableCall.memberOf?] at declares
      split at declares <;> cases declares
      simp [TableCall.arguments]
  | _ => cases declares

theorem OriginsOlder.later (older : before.OriginsOlder) (retrieves : before.Retrieves)
    (later : before.Later after) : after.OriginsOlder := by
  induction later with
  | refl => exact older
  | tail earlier called ih =>
      cases called with
      | call call fits =>
          exact ((retrieves.later earlier).1.changes_of_fits fits).originsOlder fits ih

theorem ListsOwn.later (listsOwn : before.ListsOwn) (retrieves : before.Retrieves)
    (later : before.Later after) : after.ListsOwn := by
  induction later with
  | refl => exact listsOwn
  | tail earlier called ih =>
      cases called with
      | call call fits => exact ((retrieves.later earlier).1.changes_of_fits fits).listsOwn ih

namespace OriginsOlder

theorem ownersEnd (older : table.OriginsOlder) (binding : BindingId) :
    Grounded table.Owns binding := by
  refine .of_measure BindingId.index fun declared owner owns => older declared owner ?_
  rw [Owns, Links] at owns
  simp [Entry.origins, owns]

theorem componentsEnd (older : table.OriginsOlder) (binding : BindingId) :
    Grounded (Links fun array => (table.entry array).element) binding := by
  refine .of_measure BindingId.index fun array component contains => older array component ?_
  rw [Links] at contains
  simp [Entry.origins, contains]

end OriginsOlder

/-- Where owners end, no walk outwards reports a circle. -/
theorem noOwnerCycle_of_ownersEnd (ownersEnd : ∀ binding, Grounded table.Owns binding)
    (uses : List Use) (declared : BindingId) (name : String) :
    (Use.after table {} uses).fault ≠ some (.ownerCycle declared name) := by
  intro isFault
  have recalls : (Use.after table {} uses).Recalls table :=
    (Use.carries_after .empty uses).recalls
  exact not_grounded_of_circle (recalls.fault declared name isFault) (ownersEnd declared)

/-- Every table that calls assemble is coherent. -/
theorem Assembled.coherent (assembled : table.Assembled) : table.Coherent := by
  have retrieves : table.Retrieves := (retrieves_empty.later assembled).1
  have older : table.OriginsOlder := originsOlder_empty.later retrieves_empty assembled
  constructor
  case retrieves => exact retrieves
  case canonical =>
    intro call key fits keyed after later again sameKey
    have kept := (retrieves.changes_of_fits fits).retrieves retrieves
    rcases find?_answer keyed with ⟨binding, isAnswer, found⟩
    rw [isAnswer]
    exact answer_of_found sameKey ((kept.later later).2.find? key binding found)
  case older => exact older
  case ownersEnd => exact older.ownersEnd
  case componentsEnd => exact older.componentsEnd
  case noOwnerCycle => exact noOwnerCycle_of_ownersEnd older.ownersEnd
  case listsOwn => exact listsOwn_empty.later retrieves_empty assembled
  case listed =>
    intro call holder fits declares
    have inTable := fits holder (holder_mem_arguments declares)
    have changes := retrieves.changes_of_fits fits
    rcases entry_memberOf declares inTable with ⟨isAnswer, isEntry⟩
    refine ⟨⟨table.size⟩, isAnswer, isEntry, fun after later => ?_⟩
    have extended := ((changes.retrieves retrieves).later later).2
    refine (extended.members holder (Nat.lt_of_lt_of_le inTable changes.extended.size_le)).subset ?_
    rw [isEntry]
    simp
  case unchanged =>
    intro call fits
    have changes := retrieves.changes_of_fits fits
    exact ⟨changes.extended, fun target => mem_arguments_of_target,
      fun binding old apart => changes.entry_eq old apart⟩
  case loads => exact retrieves.later_load

/-- A class path whose one type extends a channel and refers to one that is missing. -/
def valves : ClassPath where
  types := [{
    name := "flow.Valve"
    superclass := some "Socket"
    fields := [{ name := "ports", type := "int[]" }]
    constructors := [{ parameters := ["Pipe"] }]
    methods := [{ name := "open", parameters := ["flow.Gate"], annotations := ["Missing"] }] }]

set_option maxRecDepth 4000 in
theorem coherent_valves : (channels.load valves).Assembled ∧ (channels.load valves).Coherent := by
  have channelsAssembled : channels.Assembled := assembled_build (by decide)
  have assembled : (channels.load valves).Assembled :=
    channelsAssembled.trans (channelsAssembled.coherent.loads valves)
  exact ⟨assembled, assembled.coherent⟩

end Table

end JavaInspect
