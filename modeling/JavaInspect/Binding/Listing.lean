import JavaInspect.Binding.Table

/-!
# Listing bindings

A listing shows the bindings that are reachable from some others. It numbers
them in the order in which they first appear, and says of each one either
everything that is known about it, with its references given by their numbers,
or only its signature. Only what is shown in full adds further bindings.
-/

namespace JavaInspect

namespace Table

/-- The qualified name of the owner of a binding, empty without an owner. -/
def ownerName (table : Table) (binding : BindingId) : String :=
  match (table.entry binding).owner with
  | some owner => (table.entry owner).qualifiedName
  | none => ""

/-- A binding in one line. -/
def signature (table : Table) (binding : BindingId) : String :=
  let entry := table.entry binding
  match entry.kind with
  | .package => "package " ++ entry.qualifiedName
  | .type =>
      if entry.typeKind == some .unknown then "?" ++ entry.qualifiedName else entry.qualifiedName
  | .variable => table.ownerName binding ++ "#" ++ entry.name
  | .method =>
      let name := if entry.isConstructor then "<init>" else entry.name
      let parameters := entry.parameters.map fun type => (table.entry type).qualifiedName
      table.ownerName binding ++ "#" ++ name ++ "(" ++ Text.joinWith "," parameters ++ ")"

end Table

/-- What is known about a binding, with its references given by numbers. -/
structure ListedEntry where
  entry : Entry
  owner : Option Nat := none
  superclass : Option Nat := none
  element : Option Nat := none
  declaredType : Option Nat := none
  interfaces : List Nat := []
  annotations : List Nat := []
  parameters : List Nat := []
  members : List Nat := []
deriving Repr, Inhabited

/-- One item of a listing. -/
inductive ListedItem where
  | signature (text : String)
  | full (entry : ListedEntry)
deriving Repr, Inhabited

/-- The bindings that have a number; the number is their index. -/
abbrev Numbering := StateM (Array BindingId)

namespace Numbering

/-- The number of a binding, a new one when it has none. -/
def number (binding : BindingId) : Numbering Nat :=
  modifyGet fun known =>
    match known.idxOf? binding with
    | some index => (index, known)
    | none => (known.size, known.push binding)

/-- Everything that is known about a binding. -/
def listEntry (entry : Entry) : Numbering ListedEntry := do
  let owner ← entry.owner.mapM number
  let superclass ← entry.superclass.mapM number
  let element ← entry.element.mapM number
  let declaredType ← entry.declaredType.mapM number
  let interfaces ← entry.interfaces.mapM number
  let annotations ← entry.annotations.mapM number
  let parameters ← entry.parameters.mapM number
  let members ← entry.members.mapM number
  return { entry := entry, owner, superclass, element, declaredType, interfaces,
           annotations, parameters, members }

/-- List the numbered bindings from an index on, at most `count` of them. -/
def listFrom (table : Table) (isFull : BindingId → Bool) : Nat → Nat → Numbering (List ListedItem)
  | 0, _ => return []
  | count + 1, index => do
      match (← get)[index]? with
      | none => return []
      | some binding =>
          let item ←
            if isFull binding then ListedItem.full <$> listEntry (table.entry binding)
            else pure (.signature (table.signature binding))
          return item :: (← listFrom table isFull count (index + 1))

end Numbering

/-- The listing of some bindings and of what is reachable from them. -/
def Table.listing (table : Table) (isFull : BindingId → Bool) (roots : List BindingId) :
    List ListedItem :=
  let action := do
    roots.forM fun root => do
      let _ ← Numbering.number root
    Numbering.listFrom table isFull (roots.length + table.size) 0
  (StateT.run action #[]).1

/-- The listing of everything that a tree refers to. Types that the tree
declares are shown in full, and so is what was added to the table after its
first `known` bindings, apart from array types, primitive types and
placeholders. -/
def Table.listingFor (table : Table) (known : Nat) (declared roots : List BindingId) :
    List ListedItem :=
  let isPlain (binding : BindingId) : Bool :=
    match (table.entry binding).typeKind with
    | some .array | some .primitive | some .unknown => false
    | _ => true
  table.listing
    (fun binding => declared.contains binding || (known ≤ binding.index && isPlain binding))
    roots

end JavaInspect
