import JavaInspect.Proofs.Java.Consistency
import JavaInspect.Proofs.Tree.Opening

/-!
# Types that are kept apart

A type outside of bodies, or in the body of another, is found by its qualified name, so two
declarations of one name come to the same binding. A local or anonymous class is always given a
binding that was not there before, and nothing that is declared later comes to it.
-/

namespace JavaInspect.Java

open Phrase

variable {root phrase : Phrase} {base : Nat} {outer : Option BindingId} {type : BindingId}
  {before middle after state : Lowering} {members : List Phrase} {new newer declared : Declared}
  {node : NodeId} {name : String} {table : Table}

/-! ## Declared types -/

/-- The numbers of types with the bindings that they were declared with, the latest first. -/
def typeEntries (root : Phrase) (declared : Declared) : Declared :=
  declared.filter fun entry => root.typeNumbers.contains entry.1

theorem typeEntries_append :
    typeEntries root (newer ++ new) = typeEntries root newer ++ typeEntries root new :=
  List.filter_append _ _

theorem mem_typeEntries (inRoot : phrase ∈ root.all) (isType : phrase.declaresType)
    (isDeclared : (phrase.number, type) ∈ declared) :
    (phrase.number, type) ∈ typeEntries root declared :=
  List.mem_filter.2 ⟨isDeclared, by simpa using mem_typeNumbers inRoot isType⟩

/-- How a declared type came into a table: under a name that may have been there before, or as a
local type, which is known under its simple name and shares its binding with no other. -/
structure Enters (root : Phrase) (new : Declared) (before after : Lowering)
    (entry : Nat × BindingId) : Prop where
  inTable : entry.2.index < after.table.size
  isNew : entry.2 ∈ before.table.named ∨ before.table.size ≤ entry.2.index
  apart : entry.2 ∈ after.table.named ∨ entry.2 ∈ after.localTypes.map (·.2) ∧
    ∀ other ∈ typeEntries root new, other.2 = entry.2 → other.1 = entry.1

/-- Types have been declared. Names go on to denote what they denoted, and what no name denoted is
still denoted by none. -/
structure Separates (root : Phrase) (before after : Lowering) : Prop where
  size_le : before.table.size ≤ after.table.size
  kept : ∀ type ∈ before.table.named, type ∈ after.table.named
  registers : ∀ type ∈ after.table.named,
    type ∈ before.table.named ∨ before.table.size ≤ type.index
  remembers : ∃ newer, after.localTypes = newer ++ before.localTypes
  declared : ∃ new, after.declared = new ++ before.declared ∧
    ∀ entry ∈ typeEntries root new, Enters root new before after entry

namespace Separates

/-- The table has grown, and no type has been declared. -/
theorem of_types (size_le : before.table.size ≤ after.table.size)
    (types : after.table.types = before.table.types) (locals : after.localTypes = before.localTypes)
    (declared : ∃ new, after.declared = new ++ before.declared ∧ typeEntries root new = []) :
    Separates root before after where
  size_le := size_le
  kept := by simp [types]
  registers := by simp +contextual [types]
  remembers := ⟨[], locals⟩
  declared := by
    rcases declared with ⟨new, isNew, noTypes⟩
    exact ⟨new, isNew, by simp [noTypes]⟩

/-- The types of a body have been declared under their names. -/
theorem of_declares (declares : DeclaresTypes root base outer members new before after)
    (allListed : ∀ entry ∈ new, entry.2 ∈ after.table.named) : Separates root before after where
  size_le := declares.grows.size_le
  kept := declares.kept
  registers := declares.registers
  remembers := by
    rcases declares.state with ⟨_, _, rfl⟩
    exact ⟨[], rfl⟩
  declared := by
    refine ⟨new, declares.declared, fun entry isEntry => ?_⟩
    have isEntry := List.mem_of_mem_filter isEntry
    exact ⟨(declares.isType entry isEntry).1, declares.enters entry isEntry,
      .inl (allListed entry isEntry)⟩

/-- A local type has been declared, with a new binding. -/
theorem of_local (size_le : before.table.size ≤ table.size) (types : table.types = before.table.types)
    (isNew : before.table.size ≤ type.index) (inTable : type.index < table.size) (number : Nat) :
    Separates root before
      { before with
        table
        localTypes := (name, type) :: before.localTypes
        declared := (number, type) :: before.declared } where
  size_le := size_le
  kept := by simp [types]
  registers := by simp +contextual [types]
  remembers := ⟨[(name, type)], rfl⟩
  declared := by
    refine ⟨[(number, type)], rfl, fun entry isEntry => ?_⟩
    obtain rfl := List.mem_singleton.1 (List.mem_of_mem_filter isEntry)
    refine ⟨inTable, .inr isNew, .inr ⟨List.mem_cons_self, fun other isOther _ => ?_⟩⟩
    rw [List.mem_singleton.1 (List.mem_of_mem_filter isOther)]

theorem trans (first : Separates root before middle) (second : Separates root middle after) :
    Separates root before after where
  size_le := Nat.le_trans first.size_le second.size_le
  kept type isListed := second.kept type (first.kept type isListed)
  registers type isListed := by
    rcases second.registers type isListed with isListed | isNew
    · exact first.registers type isListed
    · exact .inr (Nat.le_trans first.size_le isNew)
  remembers := by
    rcases first.remembers with ⟨sooner, isSooner⟩
    rcases second.remembers with ⟨later, isLater⟩
    exact ⟨later ++ sooner, by rw [isLater, isSooner, List.append_assoc]⟩
  declared := by
    rcases first.declared with ⟨new, isNew, entered⟩
    rcases second.declared with ⟨newer, isNewer, newerEntered⟩
    rcases second.remembers with ⟨later, isLater⟩
    refine ⟨newer ++ new, by rw [isNewer, isNew, List.append_assoc], fun entry isEntry => ?_⟩
    rw [typeEntries_append, List.mem_append] at isEntry
    -- What comes in later has no binding of before but one that is denoted by a name.
    have apart : ∀ sooner ∈ typeEntries root new, ∀ later ∈ typeEntries root newer,
        later.2 = sooner.2 → sooner.2 ∈ after.table.named := by
      intro sooner isSooner later isLater same
      have inTable := (entered sooner isSooner).inTable
      rw [← same] at inTable ⊢
      exact second.kept _ ((newerEntered later isLater).isNew.resolve_right (Nat.not_le.2 inTable))
    rcases isEntry with later | sooner
    · have enters := newerEntered entry later
      refine ⟨enters.inTable, ?_, ?_⟩
      · rcases enters.isNew with isListed | isNew
        · exact first.registers _ isListed
        · exact .inr (Nat.le_trans first.size_le isNew)
      · by_cases isListed : entry.2 ∈ after.table.named
        · exact .inl isListed
        · rcases enters.apart.resolve_left isListed with ⟨isLocal, alone⟩
          refine .inr ⟨isLocal, fun other isOther same => ?_⟩
          rw [typeEntries_append, List.mem_append] at isOther
          rcases isOther with isLater | isSooner
          · exact alone other isLater same
          · exact absurd (same ▸ apart other isSooner entry later same.symm) isListed
    · have enters := entered entry sooner
      refine ⟨Nat.lt_of_lt_of_le enters.inTable second.size_le, enters.isNew, ?_⟩
      by_cases isListed : entry.2 ∈ after.table.named
      · exact .inl isListed
      · have notListed : entry.2 ∉ middle.table.named := fun is => isListed (second.kept _ is)
        rcases enters.apart.resolve_left notListed with ⟨isLocal, alone⟩
        refine .inr ⟨?_, fun other isOther same => ?_⟩
        · rw [isLater, List.map_append]
          exact List.mem_append_right _ isLocal
        · rw [typeEntries_append, List.mem_append] at isOther
          rcases isOther with isLater | isSooner
          · exact absurd (apart entry sooner other isLater same) isListed
          · exact alone other isSooner same

/-- Linking some members declares no types. -/
theorem of_links (unit : root.Grammatical) (inRoot : ∀ member ∈ members, member ∈ root.all)
    (links : LinksMembers root base outer members before after) : Separates root before after := by
  refine .of_types links.declares.grows.size_le links.declares.types ?_ ?_
  · rcases links.declares.state with ⟨_, _, rfl⟩
    rfl
  · rcases links.declares.declared with ⟨new, isNew, -⟩
    have logged := links.declares.typeLog_eq unit.numbered (LinksMembers.linked_inRoot unit inRoot)
      fun phrase isLinked => (mem_allOf_of_linked unit inRoot isLinked).2
    rw [isNew, typeLog_append] at logged
    refine ⟨new, isNew, ?_⟩
    have noLog : typeLog root new = [] := by simpa using logged
    exact List.map_eq_nil_iff.1 noLog

end Separates

/-! ## Declarations in the tree -/

/-- Where the type of a node comes from: a declaration of the text, or the body of an anonymous
class, which is the only one to have it. -/
inductive Stems (root : Phrase) (state : Lowering) (node : NodeId) (type : BindingId) : Prop where
  | named (phrase : Phrase) (inRoot : phrase ∈ root.all) (isType : phrase.declaresType)
      (isDeclared : (phrase.number, type) ∈ state.declared)
      (isSpan : state.builder.build.span node = phrase.span)
  | anonymous (notDeclared : type ∉ typeLog root state.declared)
      (notListed : type ∉ state.table.named)
      (alone : ∀ other, (state.builder.build.kind other).isTypeDeclaration →
        state.builder.build.binding other = some type → other = node)

/-- What a new node that declares a type may be bound to. -/
inductive Begins (root : Phrase) (state : Lowering) (span : Span) (type : BindingId) : Prop where
  | named (phrase : Phrase) (inRoot : phrase ∈ root.all) (isType : phrase.declaresType)
      (isDeclared : (phrase.number, type) ∈ state.declared) (isSpan : span = phrase.span)
  | anonymous (notDeclared : type ∉ typeLog root state.declared)
      (notListed : type ∉ state.table.named)
      (isNew : ∀ node, state.builder.build.binding node ≠ some type)

/-- Everything that has been declared came into the table as a declaration does, and the types of
nodes stem from declarations. -/
structure Separated (root : Phrase) (state : Lowering) : Prop where
  separates : ∃ start : Lowering, start.declared = [] ∧ Separates root start state
  stems : ∀ node, (state.builder.build.kind node).isTypeDeclaration → ∀ type,
    state.builder.build.binding node = some type → Stems root state node type

namespace Separated

theorem inTable (separated : Separated root state) (isLogged : type ∈ typeLog root state.declared) :
    type.index < state.table.size := by
  rcases separated.separates with ⟨start, noneYet, separates⟩
  rcases separates.declared with ⟨new, isNew, entered⟩
  rw [noneYet, List.append_nil] at isNew
  rcases List.mem_map.1 isLogged with ⟨entry, isEntry, rfl⟩
  rw [isNew] at isEntry
  exact (entered entry isEntry).inTable

/-- Two types that were declared with one binding share a name. -/
theorem listed_of_shared {other : Phrase} (separated : Separated root state)
    (unit : root.Grammatical) (inRoot : phrase ∈ root.all) (isType : phrase.declaresType)
    (otherInRoot : other ∈ root.all) (otherIsType : other.declaresType)
    (isDeclared : (phrase.number, type) ∈ state.declared)
    (otherIsDeclared : (other.number, type) ∈ state.declared) (apart : phrase ≠ other) :
    type ∈ state.table.named := by
  rcases separated.separates with ⟨start, noneYet, separates⟩
  rcases separates.declared with ⟨new, isNew, entered⟩
  rw [noneYet, List.append_nil] at isNew
  rw [isNew] at isDeclared otherIsDeclared
  rcases (entered _ (mem_typeEntries inRoot isType isDeclared)).apart with isListed | ⟨-, alone⟩
  · exact isListed
  · have same := alone _ (mem_typeEntries otherInRoot otherIsType otherIsDeclared) rfl
    exact absurd (eq_of_number_eq unit.numbered otherInRoot inRoot same).symm apart

/-- Two nodes with one type stem from the same part of the text, unless the type has a name. -/
theorem span_eq_of_shared {other : NodeId} (separated : Separated root state) (unit : root.Grammatical)
    (isType : (state.builder.build.kind node).isTypeDeclaration)
    (otherIsType : (state.builder.build.kind other).isTypeDeclaration)
    (isBinding : state.builder.build.binding node = some type)
    (otherIsBinding : state.builder.build.binding other = some type)
    (notListed : type ∉ state.table.named) :
    state.builder.build.span other = state.builder.build.span node := by
  cases separated.stems node isType type isBinding with
  | anonymous notDeclared notListed alone => rw [alone other otherIsType otherIsBinding]
  | named phrase inRoot phraseIsType isDeclared isSpan =>
      cases separated.stems other otherIsType type otherIsBinding with
      | anonymous notDeclared notListed alone => rw [alone node isType isBinding]
      | named phrase' inRoot' phraseIsType' isDeclared' isSpan' =>
          by_cases same : phrase = phrase'
          · rw [isSpan, isSpan', same]
          · exact absurd (separated.listed_of_shared unit inRoot phraseIsType inRoot' phraseIsType'
              isDeclared isDeclared' same) notListed

/-- What is declared later comes to no class that was anonymous before. -/
theorem separatesFrom (separated : Separated root before) (separates : Separates root before after)
    (sameTree : after.builder = before.builder)
    (inTable : ∀ node type, before.builder.build.binding node = some type →
      type.index < before.table.size) : Separated root after where
  separates := by
    rcases separated.separates with ⟨start, noneYet, first⟩
    exact ⟨start, noneYet, first.trans separates⟩
  stems node isType type isBinding := by
    rw [sameTree] at isType isBinding
    rcases separates.declared with ⟨new, isNew, entered⟩
    cases separated.stems node isType type isBinding with
    | named phrase inRoot phraseIsType isDeclared isSpan =>
        exact .named phrase inRoot phraseIsType (isNew ▸ List.mem_append_right _ isDeclared)
          (sameTree.symm ▸ isSpan)
    | anonymous notDeclared notListed alone =>
        have old := inTable node type isBinding
        refine .anonymous ?_ (fun isListed => ?_) (sameTree.symm ▸ alone)
        · rw [isNew, typeLog_append, List.mem_append]
          rintro (isEntry | isOld)
          · rcases List.mem_map.1 isEntry with ⟨entry, inNew, rfl⟩
            exact (entered entry inNew).isNew.elim notListed (Nat.not_le.2 old)
          · exact notDeclared isOld
        · exact (separates.registers type isListed).elim notListed (Nat.not_le.2 old)

/-- It does not matter what is in scope. -/
theorem rescope (separated : Separated root state) {classes : List ClassScope}
    {methodTypeParameters : List (List String)} {methods : List BindingId} {scopes : List Scope} :
    Separated root { state with classes, methodTypeParameters, methods, scopes } where
  separates := by
    rcases separated.separates with ⟨start, noneYet, separates⟩
    exact ⟨start, noneYet, separates.trans (.of_types (Nat.le_refl _) rfl rfl ⟨[], rfl, rfl⟩)⟩
  stems node isType type isBinding := by
    cases separated.stems node isType type isBinding with
    | named phrase inRoot phraseIsType isDeclared isSpan =>
        exact .named phrase inRoot phraseIsType isDeclared isSpan
    | anonymous notDeclared notListed alone => exact .anonymous notDeclared notListed alone

/-- The tree has changed. Its type declarations are those of before, and new ones. -/
theorem rebuild {builder : TreeBuilder} (separated : Separated root state)
    (nodes : ∀ node, (builder.build.kind node).isTypeDeclaration → ∀ type,
      builder.build.binding node = some type →
        ((state.builder.build.kind node).isTypeDeclaration ∧
          state.builder.build.binding node = some type ∧
          builder.build.span node = state.builder.build.span node) ∨
        Stems root { state with builder } node type) :
    Separated root { state with builder } where
  separates := by
    rcases separated.separates with ⟨start, noneYet, separates⟩
    exact ⟨start, noneYet, separates.trans (.of_types (Nat.le_refl _) rfl rfl ⟨[], rfl, rfl⟩)⟩
  stems node isType type isBinding := by
    rcases nodes node isType type isBinding with ⟨wasType, wasBinding, sameSpan⟩ | stems
    · cases separated.stems node wasType type wasBinding with
      | named phrase inRoot phraseIsType isDeclared isSpan =>
          exact .named phrase inRoot phraseIsType isDeclared (sameSpan.trans isSpan)
      | anonymous notDeclared notListed alone =>
          refine .anonymous notDeclared notListed fun other otherIsType otherIsBinding => ?_
          rcases nodes other otherIsType type otherIsBinding with ⟨otherWas, wasOther, -⟩ | stems
          · exact alone other otherWas wasOther
          · cases stems with
            | named phrase inRoot phraseIsType isDeclared _ =>
                exact absurd (List.mem_map_of_mem (mem_typeEntries inRoot phraseIsType isDeclared))
                  notDeclared
            | anonymous _ _ alone => exact (alone node isType isBinding).symm
    · exact stems

end Separated

end JavaInspect.Java
