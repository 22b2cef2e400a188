import JavaInspect.Proofs.Binding.Building

/-!
# What calls are made of

A call that builds a table does a few things only: it appends a binding, alone or as the last
member of its owner, keeps a binding in an index for the next time that it is asked for, or
revises an entry without touching what its declaration settled. What each of these keeps, every
call keeps.
-/

namespace JavaInspect

open Relation

namespace Entry

/-- What a declaration settles. Supertypes, annotations, members and flags come later. -/
def settled (entry : Entry) : Entry :=
  { entry with
    recovered := false
    superclass := none
    interfaces := []
    annotations := []
    members := []
    varargs := false }

/-- The bindings that a declaration is made from. -/
def origins (entry : Entry) : List BindingId :=
  entry.owner.toList ++ entry.element.toList ++ entry.parameters ++ entry.declaredType.toList

variable {entry other : Entry}

/-- What depends only on what was settled. -/
theorem eq_of_settled {Shown : Type} (shows : Entry → Shown)
    (onlySettled : ∀ entry, shows entry.settled = shows entry)
    (same : entry.settled = other.settled) : shows entry = shows other := by
  rw [← onlySettled entry, same, onlySettled]

end Entry

namespace Table

/-! ## Indexes -/

/-- What an index is asked for. -/
inductive Key where
  | type (qualifiedName : String)
  | package (name : String)
  | primitive (name : String)
  | unresolved (token : String)
  | array (element : BindingId)
deriving DecidableEq

namespace Key

/-- The binding that a table keeps for a key. -/
def find? (table : Table) : Key → Option BindingId
  | .type qualifiedName => table.types.lookup qualifiedName
  | .package name => table.packages.lookup name
  | .primitive name => table.primitives.lookup name
  | .unresolved token => table.unresolved.lookup token
  | .array element => table.arrays.lookup element

/-- The entry of a binding that is kept for a key. -/
def Describes (key : Key) (entry : Entry) : Prop :=
  match key with
  | .type qualifiedName => entry.kind = .type ∧ entry.qualifiedName = qualifiedName
  | .package name => entry.kind = .package ∧ entry.qualifiedName = name
  | .primitive name =>
      entry.kind = .type ∧ entry.typeKind = some .primitive ∧ entry.qualifiedName = name
  | .unresolved token =>
      entry.kind = .type ∧ entry.typeKind = some .unknown ∧ entry.qualifiedName = token
  | .array element =>
      entry.kind = .type ∧ entry.typeKind = some .array ∧ entry.element = some element

theorem describes_iff {entry other : Entry} (same : entry.settled = other.settled) (key : Key) :
    key.Describes entry ↔ key.Describes other := by
  refine iff_of_eq (Entry.eq_of_settled key.Describes (fun _ => ?_) same)
  cases key <;> rfl

end Key

/-- Keep a binding for a key. -/
def keep (table : Table) (binding : BindingId) : Key → Table
  | .type qualifiedName => { table with types := (qualifiedName, binding) :: table.types }
  | .package name => { table with packages := (name, binding) :: table.packages }
  | .primitive name => { table with primitives := (name, binding) :: table.primitives }
  | .unresolved token => { table with unresolved := (token, binding) :: table.unresolved }
  | .array element => { table with arrays := (element, binding) :: table.arrays }

/-- The binding that is kept for a key, made from an entry when there is none. -/
def findOrPush (table : Table) (key : Key) (entry : Entry) : BindingId × Table :=
  match key.find? table with
  | some known => (known, table)
  | none => (⟨table.size⟩, (table.push entry).2.keep ⟨table.size⟩ key)

variable {table before after : Table} {binding other holder : BindingId} {entry : Entry}
  {key asked : Key} {given : List BindingId} {target : Option BindingId}

@[simp] theorem entries_keep : (table.keep binding key).entries = table.entries := by
  cases key <;> rfl

@[simp] theorem size_keep : (table.keep binding key).size = table.size := by
  rw [size, entries_keep, size]

@[simp] theorem entry_keep : (table.keep binding key).entry other = table.entry other := by
  rw [Table.entry, entries_keep, Table.entry]

theorem find?_keep : asked.find? (table.keep binding key) =
    if asked = key then some binding else asked.find? table := by
  cases key <;> cases asked <;>
    simp only [Key.find?, keep, List.lookup_cons, Key.type.injEq, Key.package.injEq,
      Key.primitive.injEq, Key.unresolved.injEq, Key.array.injEq, reduceCtorEq, if_false] <;>
    split <;> simp_all

theorem findOrPush_of_found (found : key.find? table = some binding) :
    table.findOrPush key entry = (binding, table) := by
  rw [findOrPush, found]

theorem find?_findOrPush :
    key.find? (table.findOrPush key entry).2 = some (table.findOrPush key entry).1 := by
  cases found : key.find? table with
  | some known => rw [findOrPush_of_found found, found]
  | none => rw [findOrPush, found, find?_keep, if_pos rfl]

/-! ## Changes -/

/-- One change of a table by a call that is given some bindings and changes at most the entry of
one of them. -/
inductive Change (given : List BindingId) (target : Option BindingId) : Table → Table → Prop where
  | push {before : Table} {entry : Entry} (noMembers : entry.members = [])
      (origins : ∀ origin ∈ entry.origins, origin ∈ given ∨ origin.index < before.size) :
      Change given target before (before.push entry).2
  | pushMember {before : Table} {entry : Entry} {owner : BindingId} (isTarget : target = some owner)
      (inTable : owner.index < before.size) (isOwner : entry.owner = some owner)
      (noMembers : entry.members = [])
      (origins : ∀ origin ∈ entry.origins, origin ∈ given ∨ origin.index < before.size) :
      Change given target before ((before.push entry).2.addMember owner ⟨before.size⟩)
  | keep {before : Table} {binding : BindingId} {key : Key} (absent : key.find? before = none)
      (inTable : binding.index < before.size) (describes : key.Describes (before.entry binding)) :
      Change given target before (before.keep binding key)
  | revise {before : Table} {binding : BindingId} {change : Entry → Entry}
      (isTarget : target = some binding)
      (keepsSettled : ∀ entry, (change entry).settled = entry.settled)
      (keepsMembers : ∀ entry, (change entry).members = entry.members) :
      Change given target before (before.modify binding change)
  | hide {before : Table} (qualifiedName : String) :
      Change given target before (before.hideType qualifiedName)

/-- Changes one after another. -/
abbrev Changes (given : List BindingId) (target : Option BindingId) : Table → Table → Prop :=
  ReflTransGen (Change given target)

/-! ## What changes keep -/

@[simp] theorem settled_entry_addMember {member : BindingId} :
    ((table.addMember holder member).entry other).settled = (table.entry other).settled :=
  proj_entry_modify Entry.settled fun _ => rfl

@[simp] theorem size_addMember {member : BindingId} :
    (table.addMember holder member).size = table.size :=
  size_modify

theorem members_push (noMembers : entry.members = []) :
    ((table.push entry).2.entry other).members = (table.entry other).members := by
  rw [entry_push]
  split
  case isTrue isNew =>
    have blank : table.entry ⟨table.size⟩ = {} := entry_of_outside (Nat.lt_irrefl _)
    rw [noMembers, isNew, blank]
  case isFalse => rfl

theorem entry_pushMember (inTable : holder.index < table.size) :
    ((table.push entry).2.addMember holder ⟨table.size⟩).entry holder =
      { table.entry holder with members := (table.entry holder).members ++ [⟨table.size⟩] } := by
  have stays : holder.index < (table.push entry).2.size := by
    rw [size_push]
    exact Nat.lt_succ_of_lt inTable
  rw [addMember, entry_modify stays, if_pos rfl, entry_push_old inTable]

theorem members_pushMember (inTable : holder.index < table.size) (noMembers : entry.members = []) :
    (((table.push entry).2.addMember holder ⟨table.size⟩).entry other).members =
      if other = holder then (table.entry other).members ++ [⟨table.size⟩]
      else (table.entry other).members := by
  split
  case isTrue isHolder => rw [isHolder, entry_pushMember inTable]
  case isFalse apart => rw [addMember, entry_modify_of_ne apart, members_push noMembers]

/-- A member that is listed afterwards was listed before or is the new one. -/
theorem mem_members_pushMember {member : BindingId} (inTable : holder.index < table.size)
    (noMembers : entry.members = [])
    (isMember : member ∈
      (((table.push entry).2.addMember holder ⟨table.size⟩).entry other).members) :
    member ∈ (table.entry other).members ∨ (other = holder ∧ member = ⟨table.size⟩) := by
  rw [members_pushMember inTable noMembers] at isMember
  split at isMember
  case isTrue isHolder =>
    exact (List.mem_append.1 isMember).imp_right fun isNew =>
      ⟨isHolder, List.mem_singleton.1 isNew⟩
  case isFalse => exact .inl isMember

/-- A table that came from another: nothing that was settled is different, and members are only
added. -/
structure Extends (before after : Table) : Prop where
  size_le : before.size ≤ after.size
  find? : ∀ (key : Key) binding, key.find? before = some binding → key.find? after = some binding
  settled : ∀ binding, binding.index < before.size →
    (after.entry binding).settled = (before.entry binding).settled
  members : ∀ binding, binding.index < before.size →
    (before.entry binding).members <+: (after.entry binding).members

instance : IsPreorder Table Extends where
  refl _ := ⟨Nat.le_refl _, fun _ _ => id, fun _ _ => rfl, fun _ _ => List.prefix_rfl⟩
  trans _ _ _ first second :=
    { size_le := Nat.le_trans first.size_le second.size_le
      find? := fun key binding found => second.find? key binding (first.find? key binding found)
      settled := fun binding old =>
        (second.settled binding (Nat.lt_of_lt_of_le old first.size_le)).trans
          (first.settled binding old)
      members := fun binding old =>
        (first.members binding old).trans
          (second.members binding (Nat.lt_of_lt_of_le old first.size_le)) }

theorem find?_push : key.find? (table.push entry).2 = key.find? table := by
  cases key <;> rfl

theorem find?_modify {change : Entry → Entry} :
    key.find? (table.modify binding change) = key.find? table := by
  cases key <;> rfl

namespace Change

theorem extended (change : Change given target before after) : before.Extends after := by
  cases change with
  | push noMembers =>
      refine ⟨by simp, fun key binding found => find?_push.trans found, fun binding old => ?_,
        fun binding old => ?_⟩
      · rw [entry_push_old old]
      · rw [members_push noMembers]
  | pushMember _ inTable _ noMembers =>
      refine ⟨by simp, fun key binding found => find?_modify.trans (find?_push.trans found),
        fun binding old => ?_, fun binding old => ?_⟩
      · rw [settled_entry_addMember, entry_push_old old]
      · rw [members_pushMember inTable noMembers]
        split
        · exact List.prefix_append _ _
        · exact List.prefix_rfl
  | @keep _ kept absent =>
      refine ⟨by simp, fun key binding found => ?_, fun binding old => by simp,
        fun binding old => by simp⟩
      have apart : key ≠ kept := by
        rintro rfl
        cases absent.symm.trans found
      rw [find?_keep, if_neg apart, found]
  | revise _ keepsSettled keepsMembers =>
      refine ⟨by simp, fun key binding found => find?_modify.trans found, fun binding old => ?_,
        fun binding old => ?_⟩
      · exact proj_entry_modify Entry.settled keepsSettled
      · rw [proj_entry_modify Entry.members keepsMembers]
  | hide =>
      exact ⟨Nat.le_refl _, fun key binding found => by cases key <;> exact found, fun _ _ => rfl,
        fun _ _ => List.prefix_rfl⟩

/-- What is listed afterwards was listed before or is new. -/
theorem old_or_new_member {member : BindingId} (change : Change given target before after)
    (isMember : member ∈ (after.entry binding).members) :
    member ∈ (before.entry binding).members ∨ before.size ≤ member.index := by
  cases change with
  | push noMembers => exact .inl (members_push noMembers ▸ isMember)
  | pushMember _ inTable _ noMembers =>
      refine (mem_members_pushMember inTable noMembers isMember).imp_right ?_
      rintro ⟨-, rfl⟩
      exact Nat.le_refl _
  | keep => exact .inl (by rwa [entry_keep] at isMember)
  | revise _ _ keepsMembers =>
      exact .inl (by rwa [proj_entry_modify Entry.members keepsMembers] at isMember)
  | hide => exact .inl isMember

/-- Only the entry of the target is changed. -/
theorem entry_eq (change : Change given target before after) (old : binding.index < before.size)
    (apart : target ≠ some binding) : after.entry binding = before.entry binding := by
  have differs {owner : BindingId} (isTarget : target = some owner) : binding ≠ owner := by
    rintro rfl
    exact apart isTarget
  cases change with
  | push => exact entry_push_old old
  | pushMember isTarget =>
      exact (entry_modify_of_ne (differs isTarget)).trans (entry_push_old old)
  | keep => exact entry_keep
  | revise isTarget => exact entry_modify_of_ne (differs isTarget)
  | hide => rfl

end Change

theorem Changes.extended (changes : Changes given target before after) : before.Extends after := by
  induction changes with
  | refl => exact refl_of Extends before
  | tail _ change ih => exact trans_of Extends ih change.extended

theorem Changes.entry_eq (changes : Changes given target before after)
    (old : binding.index < before.size) (apart : target ≠ some binding) :
    after.entry binding = before.entry binding := by
  induction changes with
  | refl => rfl
  | tail changes change ih =>
      have stillOld := Nat.lt_of_lt_of_le old (Changes.extended changes).size_le
      exact (change.entry_eq stillOld apart).trans ih

/-! ## What is found, listed and older -/

/-- Indexes hand out what was asked for. -/
def Retrieves (table : Table) : Prop :=
  ∀ (key : Key) binding, key.find? table = some binding →
    binding.index < table.size ∧ key.Describes (table.entry binding)

/-- Members belong to the one that lists them, once. -/
structure ListsOwn (table : Table) : Prop where
  inTable : ∀ owner, ∀ member ∈ (table.entry owner).members, member.index < table.size
  owner : ∀ owner, ∀ member ∈ (table.entry owner).members,
    (table.entry member).owner = some owner
  nodup : ∀ owner, (table.entry owner).members.Nodup

/-- What a declaration is made from is older than the declaration. -/
def OriginsOlder (table : Table) : Prop :=
  ∀ binding, ∀ origin ∈ (table.entry binding).origins, origin.index < binding.index

theorem retrieves_empty : Retrieves {} := by
  intro key binding found
  cases key <;> cases found

theorem listsOwn_empty : ListsOwn {} := by
  constructor <;> simp [Table.entry]

theorem originsOlder_empty : OriginsOlder {} := by
  simp [OriginsOlder, Table.entry, Entry.origins]

/-- What is found is there after an extension, and is what it was. -/
theorem Extends.describes (extended : before.Extends after) (old : binding.index < before.size)
    (describes : key.Describes (before.entry binding)) :
    binding.index < after.size ∧ key.Describes (after.entry binding) :=
  ⟨Nat.lt_of_lt_of_le old extended.size_le,
    (Key.describes_iff (extended.settled binding old) key).2 describes⟩

theorem Extends.owner (extended : before.Extends after) (old : binding.index < before.size) :
    (after.entry binding).owner = (before.entry binding).owner :=
  Entry.eq_of_settled Entry.owner (fun _ => rfl) (extended.settled binding old)

namespace Change

theorem retrieves (change : Change given target before after) (old : before.Retrieves) :
    after.Retrieves := by
  intro key binding found
  have extended := change.extended
  have stays (found : key.find? before = some binding) :
      binding.index < after.size ∧ key.Describes (after.entry binding) :=
    extended.describes (old key binding found).1 (old key binding found).2
  cases change with
  | push => exact stays (find?_push.symm.trans found)
  | pushMember => exact stays (find?_push.symm.trans (find?_modify.symm.trans found))
  | @keep _ kept _ inTable describes =>
      rw [find?_keep] at found
      split at found
      case isTrue isKept =>
        cases found
        exact extended.describes inTable (isKept ▸ describes)
      case isFalse => exact stays found
  | revise => exact stays (find?_modify.symm.trans found)
  | hide =>
      refine stays ?_
      cases key <;> exact found

theorem listsOwn (change : Change given target before after) (old : before.ListsOwn) :
    after.ListsOwn := by
  have extended := change.extended
  -- Lists of which none has become longer are in order.
  have unlisted (same : ∀ owner, (after.entry owner).members = (before.entry owner).members) :
      after.ListsOwn := by
    refine ⟨fun owner member isMember => ?_, fun owner member isMember => ?_, fun owner => ?_⟩
    · rw [same] at isMember
      exact Nat.lt_of_lt_of_le (old.inTable owner member isMember) extended.size_le
    · rw [same] at isMember
      rw [extended.owner (old.inTable owner member isMember)]
      exact old.owner owner member isMember
    · rw [same]
      exact old.nodup owner
  cases change with
  | push noMembers => exact unlisted fun owner => members_push noMembers
  | @pushMember _ owner _ inTable isOwner noMembers =>
      refine ⟨fun other member isMember => ?_, fun other member isMember => ?_, fun other => ?_⟩
      · rcases mem_members_pushMember inTable noMembers isMember with isOld | ⟨-, rfl⟩
        · exact Nat.lt_of_lt_of_le (old.inTable other member isOld) extended.size_le
        · simp
      · rcases mem_members_pushMember inTable noMembers isMember with isOld | ⟨rfl, rfl⟩
        · rw [extended.owner (old.inTable other member isOld)]
          exact old.owner other member isOld
        · refine (Entry.eq_of_settled Entry.owner (fun _ => rfl) settled_entry_addMember).trans ?_
          rw [entry_push_new]
          exact isOwner
      · rw [members_pushMember inTable noMembers]
        split
        case isTrue =>
          rw [List.nodup_append]
          refine ⟨old.nodup other, List.nodup_singleton _, ?_⟩
          rintro member isOld _ isNew rfl
          obtain rfl := List.mem_singleton.1 isNew
          exact Nat.lt_irrefl _ (old.inTable other _ isOld)
        case isFalse => exact old.nodup other
  | keep => exact unlisted fun owner => by rw [entry_keep]
  | revise _ _ keepsMembers =>
      exact unlisted fun owner => proj_entry_modify Entry.members keepsMembers
  | hide => exact unlisted fun owner => rfl

theorem originsOlder (change : Change given target before after)
    (older : ∀ argument ∈ given, argument.index < before.size) (old : before.OriginsOlder) :
    after.OriginsOlder := by
  have keeps {left right : Table} (old : left.OriginsOlder)
      (same : ∀ binding, (right.entry binding).settled = (left.entry binding).settled) :
      right.OriginsOlder := by
    intro binding origin isOrigin
    rw [Entry.eq_of_settled Entry.origins (fun _ => rfl) (same binding)] at isOrigin
    exact old binding origin isOrigin
  have pushed {entry : Entry}
      (origins : ∀ origin ∈ entry.origins, origin ∈ given ∨ origin.index < before.size) :
      (before.push entry).2.OriginsOlder := by
    intro binding origin isOrigin
    rw [entry_push] at isOrigin
    split at isOrigin
    case isTrue isNew =>
      rw [isNew]
      exact (origins origin isOrigin).elim (older origin) id
    case isFalse => exact old binding origin isOrigin
  cases change with
  | push _ origins => exact pushed origins
  | pushMember _ _ _ _ origins => exact keeps (pushed origins) fun _ => settled_entry_addMember
  | keep => exact keeps old fun _ => by rw [entry_keep]
  | revise _ keepsSettled =>
      exact keeps old fun _ => proj_entry_modify Entry.settled keepsSettled
  | hide => exact old

end Change

namespace Changes

theorem retrieves (changes : Changes given target before after) (old : before.Retrieves) :
    after.Retrieves := by
  induction changes with
  | refl => exact old
  | tail _ change ih => exact change.retrieves ih

theorem listsOwn (changes : Changes given target before after) (old : before.ListsOwn) :
    after.ListsOwn := by
  induction changes with
  | refl => exact old
  | tail _ change ih => exact change.listsOwn ih

theorem originsOlder (changes : Changes given target before after)
    (older : ∀ argument ∈ given, argument.index < before.size) (old : before.OriginsOlder) :
    after.OriginsOlder := by
  induction changes with
  | refl => exact old
  | tail changes change ih =>
      exact change.originsOlder (fun argument isGiven => Nat.lt_of_lt_of_le (older argument isGiven)
        (Changes.extended changes).size_le) ih

end Changes

end Table

end JavaInspect
