import JavaInspect.Proofs.Binding.Changes

/-!
# Growing tables

A table in use only grows: bindings keep their kind, and an entry changes only where a type is
given its supertypes, annotations or members. What a table refers to as a type is a type of the
table, and what it lists as a member of a type belongs to that type and is listed there once.
-/

namespace JavaInspect

namespace Table

variable {table before middle after : Table} {binding other type owner : BindingId}
  {kind : BindingKind} {entry : Entry} {changed changed' : BindingId → Prop}

/-- A binding of the table of the given kind. -/
def Holds (table : Table) (kind : BindingKind) (binding : BindingId) : Prop :=
  binding.index < table.size ∧ (table.entry binding).kind = kind

/-- A table that came from another; only some of the entries there were have changed, none its kind,
and what has come to be a member is new. -/
structure Grows (changed : BindingId → Prop) (before after : Table) : Prop where
  size_le : before.size ≤ after.size
  kind : ∀ binding, binding.index < before.size →
    (after.entry binding).kind = (before.entry binding).kind
  isConstructor : ∀ binding, binding.index < before.size →
    (after.entry binding).isConstructor = (before.entry binding).isConstructor
  members : ∀ binding, ∀ member ∈ (after.entry binding).members,
    member ∈ (before.entry binding).members ∨ before.size ≤ member.index
  same : ∀ binding, binding.index < before.size → ¬ changed binding →
    after.entry binding = before.entry binding

namespace Grows

theorem refl : Grows changed table table :=
  ⟨Nat.le_refl _, fun _ _ => rfl, fun _ _ => rfl, fun _ _ => .inl, fun _ _ _ => rfl⟩

/-- Later changes count only where they hit what was in the table from the start. -/
theorem andThen (first : Grows changed before middle) (second : Grows changed' middle after)
    (implies : ∀ binding, binding.index < before.size → changed' binding → changed binding) :
    Grows changed before after where
  size_le := Nat.le_trans first.size_le second.size_le
  kind binding old :=
    (second.kind binding (Nat.lt_of_lt_of_le old first.size_le)).trans (first.kind binding old)
  isConstructor binding old :=
    (second.isConstructor binding (Nat.lt_of_lt_of_le old first.size_le)).trans
      (first.isConstructor binding old)
  members binding member isMember :=
    (second.members binding member isMember).elim (first.members binding member)
      fun isNew => .inr (Nat.le_trans first.size_le isNew)
  same binding old unchanged :=
    (second.same binding (Nat.lt_of_lt_of_le old first.size_le)
      fun isChanged => unchanged (implies binding old isChanged)).trans
        (first.same binding old unchanged)

theorem trans (first : Grows changed before middle) (second : Grows changed middle after) :
    Grows changed before after :=
  first.andThen second fun _ _ => id

/-- Only what was in the table before can have changed. -/
theorem imp (grows : Grows changed before after)
    (implies : ∀ binding, binding.index < before.size → changed binding → changed' binding) :
    Grows changed' before after :=
  ⟨grows.size_le, grows.kind, grows.isConstructor, grows.members,
    fun binding old unchanged =>
      grows.same binding old fun isChanged => unchanged (implies binding old isChanged)⟩

theorem none (grows : Grows (fun _ => False) before after) : Grows changed before after :=
  grows.imp fun _ _ impossible => impossible.elim

theorem lt (grows : Grows changed before after) (old : binding.index < before.size) :
    binding.index < after.size :=
  Nat.lt_of_lt_of_le old grows.size_le

theorem holds (grows : Grows changed before after) (held : before.Holds kind binding) :
    after.Holds kind binding :=
  ⟨grows.lt held.1, (grows.kind binding held.1).trans held.2⟩

end Grows

/-- What is referred to as a type is one, and members belong to the type that lists them. -/
structure Typed (table : Table) : Prop where
  indexed : ∀ binding ∈ table.indexed, table.Holds .type binding
  superclass : ∀ binding type, (table.entry binding).superclass = some type →
    table.Holds .type type
  declaredType : ∀ binding type, (table.entry binding).declaredType = some type →
    table.Holds .type type
  constructor : ∀ binding, (table.entry binding).isConstructor →
    (table.entry binding).kind = .method
  memberInTable : ∀ binding, ∀ member ∈ (table.entry binding).members,
    member.index < table.size
  memberOwner : ∀ binding, ∀ member ∈ (table.entry binding).members,
    (table.entry member).owner = some binding
  membersNodup : ∀ binding, (table.entry binding).members.Nodup

/-! ## Appending and changing entries -/

theorem Change.grows {given : List BindingId} {target : Option BindingId}
    (change : Change given target before after) :
    before.Grows (fun binding => target = some binding) after where
  size_le := change.extended.size_le
  kind binding old :=
    Entry.eq_of_settled Entry.kind (fun _ => rfl) (change.extended.settled binding old)
  isConstructor binding old :=
    Entry.eq_of_settled Entry.isConstructor (fun _ => rfl) (change.extended.settled binding old)
  members _ _ isMember := change.old_or_new_member isMember
  same _ old apart := change.entry_eq old apart

theorem change_push (noMembers : entry.members = []) :
    Change entry.origins none table (table.push entry).2 :=
  .push noMembers fun _ => .inl

theorem grows_push (noMembers : entry.members = []) : Grows changed table (table.push entry).2 :=
  (change_push noMembers).grows.imp nofun

theorem grows_modify {change : Entry → Entry}
    (sameSettled : ∀ entry, (change entry).settled = entry.settled)
    (sameMembers : ∀ entry, (change entry).members = entry.members) :
    Grows (· = binding) table (table.modify binding change) :=
  have revised : Change [] (some binding) table (table.modify binding change) :=
    .revise rfl sameSettled sameMembers
  revised.grows.imp fun _ _ isTarget => (Option.some.inj isTarget).symm

theorem grows_of_entries (same : after.entries = before.entries) : Grows changed before after := by
  have entries : ∀ binding, after.entry binding = before.entry binding :=
    fun binding => by rw [Table.entry, Table.entry, same]
  exact ⟨by rw [size, size, same], fun _ _ => by rw [entries], fun _ _ => by rw [entries],
    fun binding _ isMember => .inl (entries binding ▸ isMember), fun _ _ _ => entries _⟩

theorem Holds.of_entries (held : before.Holds kind binding)
    (same : after.entries = before.entries) : after.Holds kind binding := by
  rw [Holds, Table.entry, size] at held ⊢
  rwa [same]

namespace Typed

theorem empty : Typed {} where
  indexed := by simp [Table.indexed]
  superclass := by simp [Table.entry]
  declaredType := by simp [Table.entry]
  constructor := by simp [Table.entry]
  memberInTable := by simp [Table.entry]
  memberOwner := by simp [Table.entry]
  membersNodup := by simp [Table.entry]

theorem listsOwn (typed : table.Typed) : table.ListsOwn :=
  ⟨typed.memberInTable, typed.memberOwner, typed.membersNodup⟩

/-- Other indexes over the same entries. -/
theorem reindex (typed : before.Typed) (same : after.entries = before.entries)
    (indexed : ∀ binding ∈ after.indexed, before.Holds .type binding) : after.Typed := by
  have entries : after.entry = before.entry :=
    funext fun binding => by rw [Table.entry, Table.entry, same]
  have sizes : after.size = before.size := by rw [size, size, same]
  refine ⟨?_, ?_, ?_, ?_, ?_, ?_, ?_⟩
  · simpa [Holds, entries, sizes] using indexed
  · simpa [Holds, entries, sizes] using typed.superclass
  · simpa [Holds, entries, sizes] using typed.declaredType
  · simpa [entries] using typed.constructor
  · simpa [entries, sizes] using typed.memberInTable
  · simpa [entries] using typed.memberOwner
  · simpa [entries] using typed.membersNodup

/-- An entry that may be appended: it has no members and no superclass yet, and its type is a
type of the table. -/
theorem push (typed : table.Typed) (noSuperclass : entry.superclass = none)
    (noMembers : entry.members = [])
    (declared : ∀ type, entry.declaredType = some type → table.Holds .type type)
    (isMethod : entry.isConstructor → entry.kind = .method) : (table.push entry).2.Typed := by
  have lists := (change_push noMembers).listsOwn typed.listsOwn
  have grows : table.Grows (fun _ => False) (table.push entry).2 := grows_push noMembers
  have grown : ∀ {kind binding},
      table.Holds kind binding → (table.push entry).2.Holds kind binding := grows.holds
  constructor
  case indexed => exact fun binding isIndexed => grown (typed.indexed binding isIndexed)
  case superclass =>
    intro binding type isSuperclass
    rw [entry_push] at isSuperclass
    split at isSuperclass
    · simp [noSuperclass] at isSuperclass
    · exact grown (typed.superclass binding type isSuperclass)
  case declaredType =>
    intro binding type isType
    rw [entry_push] at isType
    split at isType
    · exact grown (declared type isType)
    · exact grown (typed.declaredType binding type isType)
  case constructor =>
    intro binding isConstructor
    rw [entry_push] at isConstructor ⊢
    split
    case isTrue isNew => exact isMethod (by simpa [isNew] using isConstructor)
    case isFalse notNew =>
      exact typed.constructor binding (by simpa [notNew] using isConstructor)
  case memberInTable => exact lists.inTable
  case memberOwner => exact lists.owner
  case membersNodup => exact lists.nodup

/-- Changes that leave alone what is settled and what is listed. -/
theorem modify (typed : table.Typed) {change : Entry → Entry}
    (sameSettled : ∀ entry, (change entry).settled = entry.settled)
    (sameMembers : ∀ entry, (change entry).members = entry.members)
    (superclass : ∀ type, (change (table.entry binding)).superclass = some type →
      table.Holds .type type) :
    (table.modify binding change).Typed := by
  have revised : Change [] (some binding) table (table.modify binding change) :=
    .revise rfl sameSettled sameMembers
  have lists := revised.listsOwn typed.listsOwn
  have grown : ∀ {kind other}, table.Holds kind other →
      (table.modify binding change).Holds kind other := revised.grows.holds
  have settled {Shown : Type} (shows : Entry → Shown)
      (onlySettled : ∀ entry, shows entry.settled = shows entry) (other : BindingId) :
      shows ((table.modify binding change).entry other) = shows (table.entry other) :=
    proj_entry_modify shows fun entry => Entry.eq_of_settled shows onlySettled (sameSettled entry)
  constructor
  case indexed => exact fun other isIndexed => grown (typed.indexed other isIndexed)
  case superclass =>
    intro other type isSuperclass
    by_cases apart : other = binding
    · subst apart
      by_cases inTable : other.index < table.size
      · rw [entry_modify inTable, if_pos rfl] at isSuperclass
        exact grown (superclass type isSuperclass)
      · rw [entry_of_outside (by simpa using inTable)] at isSuperclass
        cases isSuperclass
    · rw [entry_modify_of_ne apart] at isSuperclass
      exact grown (typed.superclass other type isSuperclass)
  case declaredType =>
    intro other type isType
    rw [settled Entry.declaredType fun _ => rfl] at isType
    exact grown (typed.declaredType other type isType)
  case constructor =>
    intro other isConstructor
    rw [settled Entry.isConstructor fun _ => rfl] at isConstructor
    rw [settled Entry.kind fun _ => rfl]
    exact typed.constructor other isConstructor
  case memberInTable => exact lists.inTable
  case memberOwner => exact lists.owner
  case membersNodup => exact lists.nodup

end Typed

end Table

end JavaInspect
