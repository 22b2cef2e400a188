import JavaInspect.Proofs.Binding.Assembling

/-!
# Canonical bindings

The indexes of a built table never hand out one binding for two different keys, and what they
keep for packages, primitive types, placeholders and arrays is what was made for the key. Only a
call that asks for a key can come to keep a binding for it, and the binding is new then.
-/

namespace JavaInspect

namespace Table

variable {table before after : Table} {binding element owner : BindingId} {entry : Entry}
  {key other : Key}

namespace Key

/-- The entry that is made for a key when nothing is kept for it yet. Named types are declared, and
what they are depends on the declaration. -/
def made? (table : Table) : Key → Option Entry
  | .type _ => none
  | .package name => some { kind := .package, name, qualifiedName := name }
  | .primitive name => some { name, qualifiedName := name, typeKind := some .primitive }
  | .unresolved token => some
      { name := Text.simpleName token, qualifiedName := token, typeKind := some .unknown,
        recovered := true }
  | .array element => some
      { name := (table.entry element).name ++ "[]"
        qualifiedName := (table.entry element).qualifiedName ++ "[]"
        typeKind := some .array
        element := some element }

/-- The key is that of an array only where the table has the component type. -/
def ComponentIn (table : Table) (key : Key) : Prop :=
  ∀ element, key = .array element → element.index < table.size

theorem made?_congr (component : key.ComponentIn before) (extended : before.Extends after) :
    key.made? after = key.made? before := by
  cases key with
  | array element =>
      have settled := extended.settled element (component element rfl)
      have sameName : (after.entry element).name = (before.entry element).name :=
        Entry.eq_of_settled Entry.name (fun _ => rfl) settled
      have sameQualifiedName :
          (after.entry element).qualifiedName = (before.entry element).qualifiedName :=
        Entry.eq_of_settled Entry.qualifiedName (fun _ => rfl) settled
      simp only [made?, sameName, sameQualifiedName]
  | _ => rfl

theorem describes_made (made : key.made? table = some entry) : key.Describes entry := by
  cases key <;> cases made <;> simp [Describes]

theorem members_made (made : key.made? table = some entry) : entry.members = [] := by
  cases key <;> cases made <;> rfl

end Key

/-- A table whose indexes keep bindings apart, and for each key what was made for it. -/
structure Canonical (table : Table) : Prop where
  retrieves : table.Retrieves
  apart : ∀ (key other : Key) binding, key.find? table = some binding →
    other.find? table = some binding → key = other
  component : ∀ (key : Key) binding, key.find? table = some binding → key.ComponentIn table
  made : ∀ (key : Key) binding entry, key.find? table = some binding →
    key.made? table = some entry → (table.entry binding).settled = entry.settled

/-- A table that came from another and keeps nothing else in its indexes. -/
structure Grown (before after : Table) : Prop where
  extended : before.Extends after
  find? : ∀ key : Key, key.find? after = key.find? before

theorem Grown.push (noMembers : entry.members = []) : table.Grown (table.push entry).2 where
  extended :=
    have change : Change entry.origins none table (table.push entry).2 :=
      .push noMembers fun _ => .inl
    change.extended
  find? _ := find?_push

theorem Grown.pushMember (inTable : owner.index < table.size) (isOwner : entry.owner = some owner)
    (noMembers : entry.members = []) :
    table.Grown ((table.push entry).2.addMember owner ⟨table.size⟩) where
  extended :=
    have change : Change entry.origins (some owner) table
        ((table.push entry).2.addMember owner ⟨table.size⟩) :=
      .pushMember rfl inTable isOwner noMembers fun _ => .inl
    change.extended
  find? _ := find?_modify.trans find?_push

namespace Canonical

theorem empty : Canonical {} where
  retrieves := retrieves_empty
  apart key _ _ found := by cases key <;> cases found
  component key _ found := by cases key <;> cases found
  made key _ _ found := by cases key <;> cases found

theorem grown (canonical : before.Canonical) (grown : before.Grown after) : after.Canonical where
  retrieves key binding found := by
    rw [grown.find?] at found
    have kept := canonical.retrieves key binding found
    exact grown.extended.describes kept.1 kept.2
  apart key other binding found foundOther := by
    rw [grown.find?] at found foundOther
    exact canonical.apart key other binding found foundOther
  component key binding found element isArray := by
    rw [grown.find?] at found
    exact Nat.lt_of_lt_of_le (canonical.component key binding found element isArray)
      grown.extended.size_le
  made key binding entry found made := by
    rw [grown.find?] at found
    rw [Key.made?_congr (canonical.component key binding found) grown.extended] at made
    rw [grown.extended.settled binding (canonical.retrieves key binding found).1]
    exact canonical.made key binding entry found made

/-- A binding that the table had not handed out before may be kept for a key. -/
theorem keep (canonical : before.Canonical) (grown : before.Grown after)
    (isNew : before.size ≤ binding.index) (inTable : binding.index < after.size)
    (describes : key.Describes (after.entry binding)) (component : key.ComponentIn before)
    (made : ∀ entry, key.made? before = some entry →
      (after.entry binding).settled = entry.settled) :
    (after.keep binding key).Canonical := by
  have stays := canonical.grown grown
  have unkept : ∀ other : Key, other.find? after ≠ some binding := by
    intro other found
    rw [grown.find?] at found
    exact Nat.not_lt.2 isNew (canonical.retrieves other binding found).1
  have componentAfter : key.ComponentIn after := fun element isArray =>
    Nat.lt_of_lt_of_le (component element isArray) grown.extended.size_le
  have sameMade (other : Key) : other.made? (after.keep binding key) = other.made? after := by
    cases other <;> simp [Key.made?]
  constructor
  case retrieves =>
    intro other found isFound
    rw [find?_keep] at isFound
    rw [size_keep, entry_keep]
    split at isFound
    case isTrue isKept =>
      cases isFound
      exact ⟨inTable, isKept ▸ describes⟩
    case isFalse => exact stays.retrieves other found isFound
  case apart =>
    intro first second found isFound isFoundToo
    rw [find?_keep] at isFound isFoundToo
    split at isFound <;> split at isFoundToo
    case isTrue.isTrue isKept isKeptToo => rw [isKept, isKeptToo]
    case isTrue.isFalse =>
      cases isFound
      exact (unkept second isFoundToo).elim
    case isFalse.isTrue =>
      cases isFoundToo
      exact (unkept first isFound).elim
    case isFalse.isFalse => exact stays.apart first second found isFound isFoundToo
  case component =>
    intro other found isFound element isArray
    rw [find?_keep] at isFound
    rw [size_keep]
    split at isFound
    case isTrue isKept => exact componentAfter element (isKept ▸ isArray)
    case isFalse => exact stays.component other found isFound element isArray
  case made =>
    intro other found entry isFound isMade
    rw [find?_keep] at isFound
    rw [sameMade] at isMade
    rw [entry_keep]
    split at isFound
    case isTrue isKept =>
      cases isFound
      subst isKept
      exact made entry (Key.made?_congr component grown.extended ▸ isMade)
    case isFalse => exact stays.made other found entry isFound isMade

/-! ## Calls -/

theorem findOrPush (canonical : table.Canonical) (component : key.ComponentIn table)
    (made : key.made? table = some entry) : (table.findOrPush key entry).2.Canonical := by
  rw [Table.findOrPush]
  split
  case h_1 => exact canonical
  case h_2 =>
    refine canonical.keep (.push (Key.members_made made)) (Nat.le_refl _) (by simp) ?_ component ?_
    · rw [entry_push_new]
      exact Key.describes_made made
    · intro other isMade
      rw [entry_push_new, Option.some.inj (made.symm.trans isMade)]

theorem package (canonical : table.Canonical) (name : String) :
    (table.package name).2.Canonical := by
  rw [package_eq]
  exact canonical.findOrPush nofun rfl

theorem primitive (canonical : table.Canonical) (name : String) :
    (table.primitive name).2.Canonical := by
  rw [primitive_eq]
  exact canonical.findOrPush nofun rfl

theorem unresolvedType (canonical : table.Canonical) (token : String) :
    (table.unresolvedType token).2.Canonical := by
  rw [unresolvedType_eq]
  exact canonical.findOrPush nofun rfl

theorem arrayOf (canonical : table.Canonical) (inTable : element.index < table.size) :
    (table.arrayOf element).2.Canonical := by
  rw [arrayOf_eq]
  refine canonical.findOrPush ?_ rfl
  rintro _ ⟨⟩
  exact inTable

theorem packageOf (canonical : table.Canonical) (qualifiedName : String) :
    (table.packageOf qualifiedName).2.Canonical := by
  rw [Table.packageOf]
  split
  case h_1 => exact canonical.package _
  case h_2 => exact canonical

theorem arrayOfDepth (canonical : table.Canonical) (inTable : element.index < table.size)
    (depth : Nat) : (table.arrayOfDepth element depth).2.Canonical := by
  induction depth with
  | zero => exact canonical
  | succ depth ih =>
      have component : Hands [] none _ _ := canonical.retrieves.hands_arrayOfDepth inTable depth
      exact ih.arrayOf component.inTable

theorem namedReference (canonical : table.Canonical) (name : String) :
    (table.namedReference name).2.Canonical := by
  rw [Table.namedReference]
  split
  case isTrue => exact canonical.primitive name
  case isFalse =>
    split
    case h_1 => exact canonical
    case h_2 => exact canonical.unresolvedType name

theorem typeReference (canonical : table.Canonical) (name : String) :
    (table.typeReference name).2.Canonical := by
  rw [Table.typeReference]
  cases splitDimensions name with
  | mk base depth =>
      have element : Hands [] none _ _ := canonical.retrieves.hands_namedReference base
      exact (canonical.namedReference base).arrayOfDepth element.inTable depth

theorem declareType (canonical : table.Canonical) (qualifiedName : String) (kind : TypeKind) :
    (table.declareType qualifiedName kind).2.Canonical := by
  rw [Table.declareType]
  split
  case h_1 => exact canonical
  case h_2 =>
    have packaged := canonical.packageOf qualifiedName
    generalize table.packageOf qualifiedName = answer at packaged
    rcases answer with ⟨package, middle⟩
    show ((middle.push _).2.keep ⟨middle.size⟩ (.type qualifiedName)).Canonical
    refine packaged.keep (.push rfl) (Nat.le_refl _) (by simp) ?_ (by simp [Key.ComponentIn])
      (by simp [Key.made?])
    simp [Key.Describes]

theorem declareNestedType (canonical : table.Canonical) (inTable : owner.index < table.size)
    (name : String) (kind : TypeKind) :
    (table.declareNestedType owner name kind).2.Canonical := by
  rw [Table.declareNestedType]
  split
  case h_1 => exact canonical
  case h_2 =>
    show (((table.push _).2.addMember owner ⟨table.size⟩).keep ⟨table.size⟩ (.type _)).Canonical
    refine canonical.keep (.pushMember inTable rfl rfl) (Nat.le_refl _) (by simp) ?_
      (by simp [Key.ComponentIn]) (by simp [Key.made?])
    rw [Key.describes_iff settled_entry_addMember]
    simp [Key.Describes]

/-- Every call keeps the indexes canonical. -/
theorem call (canonical : table.Canonical) (call : TableCall)
    (handedOut : ∀ subject ∈ call.subjects, subject.index < table.size) :
    (call.apply table).Canonical := by
  have extended := (canonical.retrieves.changes_call call handedOut).extended
  cases call with
  | package name => exact canonical.package name
  | declareType qualifiedName kind => exact canonical.declareType qualifiedName kind
  | declareNestedType outer name kind =>
      exact canonical.declareNestedType (handedOut outer (by simp [TableCall.subjects])) name kind
  | unresolvedType token => exact canonical.unresolvedType token
  | primitive name => exact canonical.primitive name
  | arrayOf element => exact canonical.arrayOf (handedOut element (by simp [TableCall.subjects]))
  | typeReference name => exact canonical.typeReference name
  | _ => exact canonical.grown ⟨extended, fun key => by cases key <;> rfl⟩

end Canonical

/-- The indexes of a built table are canonical. -/
theorem Built.canonical (built : table.Built) : table.Canonical := by
  induction built with
  | empty => exact .empty
  | call call _ handedOut ih => exact ih.call call handedOut

theorem Assembled.built (assembled : table.Assembled) : table.Built := by
  induction assembled with
  | refl => exact .empty
  | tail _ called ih =>
      cases called with
      | call call fits => exact .call call ih (handedOut_of_fits fits)

end Table

end JavaInspect
