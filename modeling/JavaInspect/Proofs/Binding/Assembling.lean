import JavaInspect.Library.Loading
import JavaInspect.Proofs.Binding.Changes

/-!
# Assembled tables

A table is assembled by calls that are given nothing but bindings which it handed out before.
Each call is made of a few changes to the entry of one of them at most, and loading a class path
is made of such calls.
-/

namespace JavaInspect

open Relation

namespace TableCall

/-- The bindings that a call is given. -/
def arguments : TableCall → List BindingId
  | .declareNestedType outer _ _ => [outer]
  | .declareLocalType owner _ _ => [owner]
  | .arrayOf element => [element]
  | .setSuperclass type superclass => [type, superclass]
  | .addInterface type interface => [type, interface]
  | .annotate target type => [target, type]
  | .declareMethod owner _ parameters result => owner :: parameters ++ result.toList
  | .declareConstructor owner parameters => owner :: parameters
  | .setVarargs method _ => [method]
  | .declareField owner _ type | .declareVariable owner _ type => [owner, type]
  | .markRecovered binding => [binding]
  | .package _ | .declareType _ _ | .unresolvedType _ | .primitive _ | .hideType _
  | .typeReference _ => []

/-- The one of its arguments whose entry a call may change. -/
def target? : TableCall → Option BindingId
  | .declareNestedType outer _ _ => some outer
  | .setSuperclass type _ | .addInterface type _ => some type
  | .annotate target _ => some target
  | .declareMethod owner _ _ _ | .declareConstructor owner _ | .declareField owner _ _ => some owner
  | .setVarargs method _ => some method
  | .markRecovered binding => some binding
  | _ => none

/-- The binding that a call hands out. -/
def answer (table : Table) : TableCall → Option BindingId
  | .package name => (table.package name).1
  | .declareType qualifiedName kind => (table.declareType qualifiedName kind).1
  | .declareNestedType outer name kind => (table.declareNestedType outer name kind).1
  | .declareLocalType owner name kind => (table.declareLocalType owner name kind).1
  | .unresolvedType token => (table.unresolvedType token).1
  | .primitive name => (table.primitive name).1
  | .arrayOf element => (table.arrayOf element).1
  | .declareMethod owner name parameters result =>
      (table.declareMethod owner name parameters result).1
  | .declareConstructor owner parameters => (table.declareConstructor owner parameters).1
  | .declareField owner name type => (table.declareField owner name type).1
  | .declareVariable owner name type => (table.declareVariable owner name type).1
  | .typeReference name => (table.typeReference name).1
  | .setSuperclass _ _ | .addInterface _ _ | .annotate _ _ | .setVarargs _ _ | .markRecovered _
  | .hideType _ => none

/-- What a call looks for before it makes a new binding. -/
def key? (table : Table) : TableCall → Option Table.Key
  | .package name => some (.package name)
  | .declareType qualifiedName _ => some (.type qualifiedName)
  | .declareNestedType outer name _ =>
      some (.type ((table.entry outer).qualifiedName ++ "." ++ name))
  | .unresolvedType token => some (.unresolved token)
  | .primitive name => some (.primitive name)
  | .arrayOf element => some (.array element)
  | _ => none

/-- The owner of the new member that a call makes. -/
def memberOf? (table : Table) : TableCall → Option BindingId
  | .declareMethod owner _ _ _ | .declareConstructor owner _ | .declareField owner _ _ => some owner
  | .declareNestedType outer name _ =>
      if table.lookupType ((table.entry outer).qualifiedName ++ "." ++ name) = none then some outer
      else none
  | _ => none

/-- Whether a table has handed out all that a call is given. -/
def Fits (table : Table) (call : TableCall) : Prop :=
  ∀ argument ∈ call.arguments, argument.index < table.size

instance {table : Table} {call : TableCall} : Decidable (call.Fits table) :=
  inferInstanceAs (Decidable (∀ argument ∈ call.arguments, argument.index < table.size))

end TableCall

namespace Table

variable {table before middle after : Table} {binding holder element : BindingId} {entry : Entry}
  {key : Key} {given : List BindingId} {target : Option BindingId} {call : TableCall}
  {name qualifiedName token : String} {kind : TypeKind}

/-! ## References -/

/-- An answer of a call, with the table that it leaves. -/
structure Hands (given : List BindingId) (target : Option BindingId) (before : Table)
    (answer : BindingId × Table) : Prop where
  changes : Changes given target before answer.2
  inTable : answer.1.index < answer.2.size

theorem package_eq : table.package name =
    table.findOrPush (.package name) { kind := .package, name, qualifiedName := name } :=
  rfl

theorem unresolvedType_eq : table.unresolvedType token = table.findOrPush (.unresolved token)
    { kind := .type, name := Text.simpleName token, qualifiedName := token,
      typeKind := some .unknown, recovered := true } :=
  rfl

theorem primitive_eq : table.primitive name = table.findOrPush (.primitive name)
    { kind := .type, name, qualifiedName := name, typeKind := some .primitive } :=
  rfl

theorem arrayOf_eq : table.arrayOf element = table.findOrPush (.array element)
    { kind := .type, name := (table.entry element).name ++ "[]",
      qualifiedName := (table.entry element).qualifiedName ++ "[]", typeKind := some .array,
      element := some element } :=
  rfl

theorem changes_findOrPush (noMembers : entry.members = [])
    (origins : ∀ origin ∈ entry.origins, origin ∈ given ∨ origin.index < table.size)
    (describes : key.Describes entry) :
    Changes given target table (table.findOrPush key entry).2 := by
  rw [findOrPush]
  split
  case h_1 => exact .refl
  case h_2 absent =>
    refine (ReflTransGen.single (.push noMembers origins)).tail (.keep ?_ (by simp) ?_)
    · exact find?_push.trans absent
    · rwa [entry_push_new]

namespace Retrieves

theorem hands_findOrPush (retrieves : table.Retrieves) (noMembers : entry.members = [])
    (origins : ∀ origin ∈ entry.origins, origin ∈ given ∨ origin.index < table.size)
    (describes : key.Describes entry) : Hands given target table (table.findOrPush key entry) :=
  have changes := changes_findOrPush noMembers origins describes
  ⟨changes, (changes.retrieves retrieves key _ find?_findOrPush).1⟩

theorem hands_package (retrieves : table.Retrieves) (name : String) :
    Hands given target table (table.package name) := by
  rw [package_eq]
  exact retrieves.hands_findOrPush rfl (by simp [Entry.origins]) ⟨rfl, rfl⟩

theorem hands_unresolvedType (retrieves : table.Retrieves) (token : String) :
    Hands given target table (table.unresolvedType token) := by
  rw [unresolvedType_eq]
  exact retrieves.hands_findOrPush rfl (by simp [Entry.origins]) ⟨rfl, rfl, rfl⟩

theorem hands_primitive (retrieves : table.Retrieves) (name : String) :
    Hands given target table (table.primitive name) := by
  rw [primitive_eq]
  exact retrieves.hands_findOrPush rfl (by simp [Entry.origins]) ⟨rfl, rfl, rfl⟩

theorem hands_arrayOf (retrieves : table.Retrieves)
    (isOrigin : element ∈ given ∨ element.index < table.size) :
    Hands given target table (table.arrayOf element) := by
  rw [arrayOf_eq]
  exact retrieves.hands_findOrPush rfl (by simpa [Entry.origins] using isOrigin) ⟨rfl, rfl, rfl⟩

theorem hands_arrayOfDepth (retrieves : table.Retrieves) (inTable : element.index < table.size)
    (depth : Nat) : Hands given target table (table.arrayOfDepth element depth) := by
  induction depth with
  | zero => exact ⟨.refl, inTable⟩
  | succ depth ih =>
      have array : Hands given target _ _ :=
        (ih.changes.retrieves retrieves).hands_arrayOf (.inr ih.inTable)
      exact ⟨ih.changes.trans array.changes, array.inTable⟩

theorem hands_namedReference (retrieves : table.Retrieves) (name : String) :
    Hands given target table (table.namedReference name) := by
  rw [namedReference]
  split
  · exact retrieves.hands_primitive name
  · split
    case h_1 known found => exact ⟨.refl, (retrieves (.type name) known found).1⟩
    case h_2 => exact retrieves.hands_unresolvedType name

theorem hands_typeReference (retrieves : table.Retrieves) (name : String) :
    Hands given target table (table.typeReference name) := by
  rw [typeReference]
  cases splitDimensions name with
  | mk base depth =>
      have element : Hands given target _ _ := retrieves.hands_namedReference base
      have array : Hands given target _ _ :=
        (element.changes.retrieves retrieves).hands_arrayOfDepth element.inTable depth
      exact ⟨element.changes.trans array.changes, array.inTable⟩

end Retrieves

/-! ## Declarations -/

theorem types_package : (table.package name).2.types = table.types := by
  rw [package]
  split <;> rfl

theorem types_packageOf : (table.packageOf qualifiedName).2.types = table.types := by
  rw [packageOf]
  cases Text.splitQualified? qualifiedName with
  | none => rfl
  | some => exact types_package

theorem Retrieves.changes_packageOf (retrieves : table.Retrieves) (qualifiedName : String) :
    Changes given target table (table.packageOf qualifiedName).2 ∧
      ∀ owner, (table.packageOf qualifiedName).1 = some owner →
        owner.index < (table.packageOf qualifiedName).2.size := by
  rw [packageOf]
  split
  case h_1 qualifier _ _ =>
    have package : Hands given target _ _ := retrieves.hands_package qualifier
    refine ⟨package.changes, ?_⟩
    rintro _ ⟨⟩
    exact package.inTable
  case h_2 => exact ⟨.refl, fun _ isPackage => by cases isPackage⟩

theorem Retrieves.changes_declareType (retrieves : table.Retrieves) (qualifiedName : String)
    (kind : TypeKind) : Changes given target table (table.declareType qualifiedName kind).2 := by
  rw [declareType]
  split
  case h_1 => exact .refl
  case h_2 absent =>
    have packaged : Changes given target _ _ ∧ _ := retrieves.changes_packageOf qualifiedName
    have stillAbsent : (Key.type qualifiedName).find? (table.packageOf qualifiedName).2 = none := by
      rw [Key.find?, types_packageOf, absent]
    generalize table.packageOf qualifiedName = answer at packaged stillAbsent
    rcases answer with ⟨owner, middle⟩
    show Changes given target table
      ((middle.push _).2.keep ⟨middle.size⟩ (.type qualifiedName))
    refine (packaged.1.tail (.push rfl ?_)).tail
      (.keep (find?_push.trans stillAbsent) (by simp) ?_)
    · simpa [Entry.origins] using fun origin isOwner => .inr (packaged.2 origin isOwner)
    · simp [Key.Describes]

theorem changes_declareNestedType (inTable : holder.index < table.size) (isGiven : holder ∈ given)
    (name : String) (kind : TypeKind) :
    Changes given (some holder) table (table.declareNestedType holder name kind).2 := by
  rw [declareNestedType]
  split
  case h_1 => exact .refl
  case h_2 absent =>
    show Changes given (some holder) table
      (((table.push _).2.addMember holder ⟨table.size⟩).keep ⟨table.size⟩ (.type _))
    refine (ReflTransGen.single (.pushMember rfl inTable rfl rfl ?_)).tail
      (.keep (find?_modify.trans (find?_push.trans absent)) (by simp) ?_)
    · rw [Key.describes_iff settled_entry_addMember]
      simp [Key.Describes]
    · simp [Entry.origins, isGiven]

/-- A call on bindings of the table is made of changes to the entry of its target. -/
theorem Retrieves.changes_call (retrieves : table.Retrieves) (call : TableCall)
    (handedOut : ∀ subject ∈ call.subjects, subject.index < table.size) :
    Changes call.arguments call.target? table (call.apply table) := by
  cases call with
  | package name => exact (retrieves.hands_package name).changes
  | declareType qualifiedName kind => exact retrieves.changes_declareType qualifiedName kind
  | declareNestedType outer name kind =>
      exact changes_declareNestedType (handedOut outer (by simp [TableCall.subjects]))
        (by simp [TableCall.arguments]) name kind
  | declareLocalType owner name kind =>
      exact .single (.push rfl (by simp [Entry.origins, TableCall.arguments]))
  | unresolvedType token => exact (retrieves.hands_unresolvedType token).changes
  | primitive name => exact (retrieves.hands_primitive name).changes
  | arrayOf element =>
      exact (retrieves.hands_arrayOf (.inl (by simp [TableCall.arguments]))).changes
  | declareMethod owner name parameters result =>
      refine .single (.pushMember rfl (handedOut owner (by simp [TableCall.subjects])) rfl rfl ?_)
      simp +contextual [Entry.origins, TableCall.arguments]
  | declareConstructor owner parameters =>
      refine .single (.pushMember rfl (handedOut owner (by simp [TableCall.subjects])) rfl rfl ?_)
      simp +contextual [Entry.origins, TableCall.arguments]
  | declareField owner name type =>
      refine .single (.pushMember rfl (handedOut owner (by simp [TableCall.subjects])) rfl rfl ?_)
      simp +contextual [Entry.origins, TableCall.arguments]
  | declareVariable owner name type =>
      refine .single (.push rfl ?_)
      simp +contextual [Entry.origins, TableCall.arguments]
  | hideType qualifiedName => exact .single (.hide qualifiedName)
  | typeReference name => exact (retrieves.hands_typeReference name).changes
  | setSuperclass | addInterface | annotate | setVarargs | markRecovered =>
      exact .single (.revise rfl (fun _ => rfl) fun _ => rfl)

theorem Built.retrieves (built : table.Built) : table.Retrieves := by
  induction built with
  | empty => exact retrieves_empty
  | call call _ handedOut ih => exact (ih.changes_call call handedOut).retrieves ih

theorem Built.listsOwn (built : table.Built) : table.ListsOwn := by
  induction built with
  | empty => exact listsOwn_empty
  | call call built handedOut ih =>
      exact (built.retrieves.changes_call call handedOut).listsOwn ih

/-! ## Answers -/

/-- What is found under the key of a call is its answer, and the call changes nothing. -/
theorem answer_of_found (keyed : call.key? table = some key)
    (found : key.find? table = some binding) :
    call.answer table = some binding ∧ call.apply table = table := by
  cases call with
  | package | unresolvedType | primitive | arrayOf =>
      obtain rfl := Option.some.inj keyed
      simp only [TableCall.answer, TableCall.apply, package_eq, unresolvedType_eq, primitive_eq,
        arrayOf_eq, findOrPush_of_found found, and_self]
  | declareType | declareNestedType =>
      obtain rfl := Option.some.inj keyed
      rw [Key.find?] at found
      simp only [TableCall.answer, TableCall.apply, declareType, declareNestedType, found, and_self]
  | _ => cases keyed

theorem find?_declareType (table : Table) (qualifiedName : String) (kind : TypeKind) :
    (Key.type qualifiedName).find? (table.declareType qualifiedName kind).2 =
      some (table.declareType qualifiedName kind).1 := by
  rw [declareType]
  cases found : table.types.lookup qualifiedName with
  | some known => exact found
  | none => exact List.lookup_cons_self

/-- The answer of a call is found under its key afterwards. -/
theorem find?_answer (keyed : call.key? table = some key) : ∃ binding,
    call.answer table = some binding ∧ key.find? (call.apply table) = some binding := by
  cases call with
  | package | unresolvedType | primitive | arrayOf =>
      obtain rfl := Option.some.inj keyed
      simp only [TableCall.answer, TableCall.apply, package_eq, unresolvedType_eq, primitive_eq,
        arrayOf_eq]
      exact ⟨_, rfl, find?_findOrPush⟩
  | declareType qualifiedName kind =>
      obtain rfl := Option.some.inj keyed
      exact ⟨_, rfl, find?_declareType table qualifiedName kind⟩
  | declareNestedType outer name kind =>
      obtain rfl := Option.some.inj keyed
      refine ⟨_, rfl, ?_⟩
      rw [TableCall.apply, declareNestedType]
      cases found : table.types.lookup ((table.entry outer).qualifiedName ++ "." ++ name) with
      | some known => exact found
      | none => exact List.lookup_cons_self
  | _ => cases keyed

/-- A new member is listed last with its owner, whose entry stays as it is apart from that. -/
theorem entry_memberOf (declares : call.memberOf? table = some holder)
    (inTable : holder.index < table.size) :
    call.answer table = some ⟨table.size⟩ ∧ (call.apply table).entry holder =
      { table.entry holder with members := (table.entry holder).members ++ [⟨table.size⟩] } := by
  cases call with
  | declareMethod | declareConstructor | declareField =>
      cases declares
      exact ⟨rfl, entry_pushMember inTable⟩
  | declareNestedType outer name kind =>
      rw [TableCall.memberOf?] at declares
      split at declares
      case isTrue absent =>
        cases declares
        rw [lookupType] at absent
        simp only [TableCall.answer, TableCall.apply, declareNestedType, absent]
        exact ⟨rfl, entry_pushMember inTable⟩
      case isFalse => cases declares
  | _ => cases declares

/-! ## Calls one after another -/

/-- A table after one more call, which is given only what was handed out. -/
inductive Called (before : Table) : Table → Prop where
  | call (call : TableCall) (fits : call.Fits before) : Called before (call.apply before)

/-- A table after further calls. -/
abbrev Later : Table → Table → Prop := ReflTransGen Called

/-- A table that calls have made from the empty one. -/
def Assembled (table : Table) : Prop := Later {} table

theorem handedOut_of_fits (fits : call.Fits table) :
    ∀ subject ∈ call.subjects, subject.index < table.size := by
  intro subject isSubject
  apply fits
  cases call <;> simp_all [TableCall.subjects, TableCall.arguments]

theorem Retrieves.changes_of_fits (retrieves : table.Retrieves) (fits : call.Fits table) :
    Changes call.arguments call.target? table (call.apply table) :=
  retrieves.changes_call call (handedOut_of_fits fits)

theorem Retrieves.later (retrieves : before.Retrieves) (later : before.Later after) :
    after.Retrieves ∧ before.Extends after := by
  induction later with
  | refl => exact ⟨retrieves, refl_of Extends before⟩
  | tail _ called ih =>
      rcases ih with ⟨retrieves, extended⟩
      cases called with
      | call call fits =>
          have changes := retrieves.changes_of_fits fits
          exact ⟨changes.retrieves retrieves, trans_of Extends extended changes.extended⟩

theorem later_call (call : TableCall) (fits : call.Fits table) : table.Later (call.apply table) :=
  .single (.call call fits)

/-- Whether each of some calls is given only what was handed out before it. -/
def FitAll (table : Table) : List TableCall → Prop
  | [] => True
  | call :: calls => call.Fits table ∧ FitAll (call.apply table) calls

instance decidableFitAll : (table : Table) → (calls : List TableCall) →
    Decidable (table.FitAll calls)
  | _, [] => inferInstanceAs (Decidable True)
  | table, call :: calls =>
      have := decidableFitAll (call.apply table) calls
      inferInstanceAs (Decidable (call.Fits table ∧ FitAll (call.apply table) calls))

theorem assembled_build {calls : List TableCall} (fits : FitAll {} calls) :
    (build calls).Assembled := by
  suffices ∀ table : Table, table.FitAll calls → table.Later
      (calls.foldl (fun table call =>
        if ∀ subject ∈ call.subjects, subject.index < table.size then call.apply table
        else table) table) from this {} fits
  clear fits
  induction calls with
  | nil => exact fun _ _ => .refl
  | cons call calls ih =>
      rintro table ⟨fits, others⟩
      rw [List.foldl_cons, if_pos (handedOut_of_fits fits)]
      exact (later_call call fits).trans (ih _ others)

/-! ## Class paths -/

namespace Retrieves

/-- A type is referred to by name and given to a call with bindings that were there before. -/
theorem later_refer (retrieves : table.Retrieves) (name : String) (call : TableCall)
    (fits : ∀ argument ∈ call.arguments,
      argument = (table.typeReference name).1 ∨ argument.index < table.size) :
    table.Later (call.apply (table.typeReference name).2) := by
  have reference : Hands [] none _ _ := retrieves.hands_typeReference name
  refine (later_call (.typeReference name) nofun).tail (.call call fun argument isGiven => ?_)
  rcases fits argument isGiven with rfl | inTable
  · exact reference.inTable
  · exact Nat.lt_of_lt_of_le inTable reference.changes.extended.size_le

theorem later_foldl {Item : Type} {change : Table → Item → Table} (retrieves : table.Retrieves)
    (inTable : holder.index < table.size)
    (step : ∀ (table : Table) item, table.Retrieves → holder.index < table.size →
      table.Later (change table item)) (items : List Item) :
    table.Later (items.foldl change table) := by
  induction items generalizing table with
  | nil => exact .refl
  | cons item items ih =>
      have first := step table item retrieves inTable
      have further := retrieves.later first
      exact first.trans (ih further.1 (Nat.lt_of_lt_of_le inTable further.2.size_le))

theorem later_typeReferences (retrieves : table.Retrieves) (names : List String) :
    table.Later (table.typeReferences names).2 ∧
      ∀ type ∈ (table.typeReferences names).1,
        type.index < (table.typeReferences names).2.size := by
  induction names generalizing table with
  | nil => exact ⟨.refl, nofun⟩
  | cons name names ih =>
      have reference : Hands [] none _ _ := retrieves.hands_typeReference name
      have first : table.Later (table.typeReference name).2 :=
        later_call (.typeReference name) nofun
      rw [typeReferences]
      generalize table.typeReference name = answer at reference first ⊢
      rcases answer with ⟨type, middle⟩
      simp only at first ⊢
      have others := ih (retrieves.later first).1
      have extended := ((retrieves.later first).1.later others.1).2
      generalize middle.typeReferences names = answer at others extended ⊢
      rcases answer with ⟨types, after⟩
      refine ⟨first.trans others.1, fun listed isListed => ?_⟩
      rcases List.mem_cons.1 isListed with rfl | isOther
      · exact Nat.lt_of_lt_of_le reference.inTable extended.size_le
      · exact others.2 listed isOther

theorem later_annotateByName (retrieves : table.Retrieves) (inTable : holder.index < table.size)
    (name : String) : table.Later (annotateByName holder table name) :=
  retrieves.later_refer name (.annotate holder (table.typeReference name).1)
    (by simp [TableCall.arguments, inTable])

theorem later_loadField (retrieves : table.Retrieves) (inTable : holder.index < table.size)
    (field : LibraryField) : table.Later (loadField holder table field) :=
  retrieves.later_refer field.type
    (.declareField holder field.name (table.typeReference field.type).1)
    (by simp [TableCall.arguments, inTable])

theorem later_linkSuperclass (retrieves : table.Retrieves) (inTable : holder.index < table.size)
    (name : String) : table.Later (linkSuperclass holder table name) :=
  retrieves.later_refer name (.setSuperclass holder (table.typeReference name).1)
    (by simp [TableCall.arguments, inTable])

theorem later_linkInterface (retrieves : table.Retrieves) (inTable : holder.index < table.size)
    (name : String) : table.Later (linkInterface holder table name) :=
  retrieves.later_refer name (.addInterface holder (table.typeReference name).1)
    (by simp [TableCall.arguments, inTable])

theorem later_loadConstructor (retrieves : table.Retrieves) (inTable : holder.index < table.size)
    (constructor : LibraryConstructor) :
    table.Later (loadConstructor holder table constructor) := by
  have parameters := retrieves.later_typeReferences constructor.parameters
  have extended := (retrieves.later parameters.1).2
  refine (parameters.1.tail (.call (.declareConstructor holder _) ?_)).tail
    (.call (.setVarargs _ constructor.varargs) ?_)
  · intro argument isGiven
    rcases List.mem_cons.1 isGiven with rfl | isParameter
    · exact Nat.lt_of_lt_of_le inTable extended.size_le
    · exact parameters.2 argument isParameter
  · simp [TableCall.Fits, TableCall.arguments, TableCall.apply, declareConstructor]

theorem later_loadMethod (retrieves : table.Retrieves) (inTable : holder.index < table.size)
    (method : LibraryMethod) : table.Later (loadMethod holder table method) := by
  have parameters := retrieves.later_typeReferences method.parameters
  rw [loadMethod]
  generalize table.typeReferences method.parameters = answer at parameters ⊢
  rcases answer with ⟨types, middle⟩
  have toMiddle := retrieves.later parameters.1
  have result : Hands [] none _ _ :=
    toMiddle.1.hands_typeReference (method.returns.getD "void")
  have toResult : middle.Later (middle.typeReference (method.returns.getD "void")).2 :=
    later_call (.typeReference _) nofun
  simp only
  generalize middle.typeReference (method.returns.getD "void") = answer at result toResult ⊢
  rcases answer with ⟨resultType, later⟩
  have grown : table.size ≤ later.size :=
    Nat.le_trans toMiddle.2.size_le result.changes.extended.size_le
  have declared : table.Later
      ((TableCall.setVarargs ⟨later.size⟩ method.varargs).apply
        ((TableCall.declareMethod holder method.name types (some resultType)).apply later)) := by
    refine ((parameters.1.trans toResult).tail (.call _ ?_)).tail (.call _ ?_)
    · intro argument isGiven
      simp only [TableCall.arguments, List.cons_append, List.mem_cons, List.mem_append,
        Option.toList_some, List.not_mem_nil, or_false] at isGiven
      rcases isGiven with rfl | isParameter | rfl
      · exact Nat.lt_of_lt_of_le inTable grown
      · exact Nat.lt_of_lt_of_le (parameters.2 argument isParameter)
          result.changes.extended.size_le
      · exact result.inTable
    · simp [TableCall.Fits, TableCall.arguments, TableCall.apply, declareMethod]
  refine declared.trans ((retrieves.later declared).1.later_foldl ?_
    (fun _ name retrieves inTable => retrieves.later_annotateByName inTable name) _)
  simp [TableCall.apply, setVarargs, declareMethod]

theorem later_superclass (retrieves : table.Retrieves) (inTable : holder.index < table.size)
    (name : Option String) :
    table.Later (match name with
      | some name => linkSuperclass holder table name
      | none => table) := by
  split
  · exact retrieves.later_linkSuperclass inTable _
  · exact .refl

theorem later_linkLibraryType (retrieves : table.Retrieves) (inTable : holder.index < table.size)
    (type : LibraryType) : table.Later (table.linkLibraryType type holder) := by
  have going {Item : Type} {change : Table → Item → Table} {middle : Table} (items : List Item)
      (step : ∀ (table : Table) item, table.Retrieves → holder.index < table.size →
        table.Later (change table item)) (first : table.Later middle) :
      table.Later (items.foldl change middle) :=
    have further := retrieves.later first
    first.trans (further.1.later_foldl (Nat.lt_of_lt_of_le inTable further.2.size_le) step items)
  rw [linkLibraryType]
  have superclass := retrieves.later_superclass inTable type.superclass?
  have interfaces := going type.interfaces
    (fun _ name retrieves inTable => retrieves.later_linkInterface inTable name) superclass
  have annotations := going type.annotations
    (fun _ name retrieves inTable => retrieves.later_annotateByName inTable name) interfaces
  have fields := going type.fields
    (fun _ field retrieves inTable => retrieves.later_loadField inTable field) annotations
  have constructors := going type.constructors
    (fun _ constructor retrieves inTable => retrieves.later_loadConstructor inTable constructor)
    fields
  exact going type.methods
    (fun _ method retrieves inTable => retrieves.later_loadMethod inTable method) constructors

theorem later_declareLibraryTypes (retrieves : table.Retrieves) (types : List LibraryType) :
    table.Later (table.declareLibraryTypes types).2 ∧
      ∀ type ∈ (table.declareLibraryTypes types).1,
        type.index < (table.declareLibraryTypes types).2.size := by
  induction types generalizing table with
  | nil => exact ⟨.refl, nofun⟩
  | cons type types ih =>
      have first : table.Later (table.declareType type.name type.kind.typeKind).2 :=
        later_call (.declareType type.name type.kind.typeKind) nofun
      have declared := retrieves.later first
      have found := find?_declareType table type.name type.kind.typeKind
      rcases ih declared.1 with ⟨others, inTable⟩
      refine ⟨first.trans others, fun binding isListed => ?_⟩
      rcases List.mem_cons.1 isListed with rfl | isOther
      · exact Nat.lt_of_lt_of_le (declared.1 _ _ found).1 (declared.1.later others).2.size_le
      · exact inTable binding isOther

/-- Loading a class path is a sequence of calls, each given only what was handed out. -/
theorem later_load (retrieves : table.Retrieves) (path : ClassPath) :
    table.Later (table.load path) := by
  rw [load]
  have declared := retrieves.later_declareLibraryTypes path.types
  generalize table.declareLibraryTypes path.types = answer at declared ⊢
  rcases answer with ⟨bindings, middle⟩
  have listed : ∀ item ∈ path.types.zip bindings, item.2.index < middle.size :=
    fun item isItem => declared.2 _ (List.of_mem_zip isItem).2
  refine declared.1.trans ?_
  replace retrieves := (retrieves.later declared.1).1
  clear declared
  simp only
  generalize path.types.zip bindings = items at listed
  induction items generalizing middle with
  | nil => exact .refl
  | cons item items ih =>
      have linked := retrieves.later_linkLibraryType (listed item List.mem_cons_self) item.1
      have further := retrieves.later linked
      exact linked.trans (ih _ further.1 fun other isOther => Nat.lt_of_lt_of_le
        (listed other (List.mem_cons_of_mem _ isOther)) further.2.size_le)

end Retrieves

end Table

end JavaInspect
