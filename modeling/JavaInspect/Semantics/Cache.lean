import JavaInspect.Binding.Table
import JavaInspect.Library.Type
import JavaInspect.Semantics.Fault

/-!
# The facade cache

Semantic queries hand out facades: small handles for types and symbols, each
made at most once per binding, so that facades can be compared by their index.
The cache holds the facades, what was derived about each symbol, the first
fault, and counters of answered and missed look-ups.

A query is a state transformer over the cache. The binding table it asks is a
parameter and never changes.
-/

namespace JavaInspect

/-- The index of a type facade. -/
structure TypeId where
  index : Nat
deriving DecidableEq, Repr, Inhabited

namespace TypeId

/-- The one type that stands for everything unresolved. -/
def unknown : TypeId := ⟨0⟩

/-- Whether a facade is the unknown type. -/
def isUnknown (type : TypeId) : Bool := type == unknown

@[simp] theorem isUnknown_iff {type : TypeId} : type.isUnknown = true ↔ type = unknown := by
  simp [isUnknown]

end TypeId

/-- The index of a symbol facade. -/
structure SymbolId where
  index : Nat
deriving DecidableEq, Repr, Inhabited

/-- The name that the unknown type is shown by. -/
def unknownTypeName : String := "!unknown!"

/-- What a type facade shows. -/
structure TypeFacade where
  /-- The binding behind the facade; absent for the unknown type. -/
  binding : Option BindingId := none
  name : String := unknownTypeName
  qualifiedName : String := unknownTypeName
  kind : TypeKind := .unknown
  /-- The component type of an array. -/
  element : Option TypeId := none
deriving DecidableEq, Repr, Inhabited

/-- One annotation of a declaration. -/
inductive AnnotationUse where
  | resolved (type : TypeId)
  /-- The name token of an annotation whose type is unknown. -/
  | unresolved (token : String)
deriving DecidableEq, Repr, Inhabited

/-- What a symbol facade shows, and what was derived about it so far. -/
structure SymbolFacade where
  binding : BindingId := ⟨0⟩
  kind : BindingKind := .type
  name : String := ""
  recovered : Bool := false
  superTypes : Option (List TypeId) := none
  interfaces : Option (List TypeId) := none
  members : Option (List SymbolId) := none
  metadata : Option (List AnnotationUse) := none
  outermost : Option (Option SymbolId) := none
  /-- Set while the supertypes are being computed; meeting it again means a
  cycle. -/
  linearizing : Bool := false
deriving DecidableEq, Repr, Inhabited

/-- Facades, derived facts, the first fault and the counters. -/
structure Cache where
  types : Array TypeFacade := #[{}]
  typeIndex : List (BindingId × TypeId) := []
  symbols : Array SymbolFacade := #[]
  symbolIndex : List (BindingId × SymbolId) := []
  fault : Option SemanticFault := none
  hits : Nat := 0
  misses : Nat := 0
deriving DecidableEq, Repr, Inhabited

namespace Cache

/-- The facade of a type; the unknown one outside the cache. -/
def type (cache : Cache) (type : TypeId) : TypeFacade :=
  cache.types[type.index]?.getD {}

/-- The facade of a symbol; a blank one outside the cache. -/
def symbol (cache : Cache) (symbol : SymbolId) : SymbolFacade :=
  cache.symbols[symbol.index]?.getD {}

/-- Whether a type is known and has the given qualified name. -/
def isNamed (cache : Cache) (type : TypeId) (name : String) : Bool :=
  !type.isUnknown && (cache.type type).qualifiedName == name

/-- Count a look-up that was answered from the cache. -/
def noteHit (cache : Cache) : Cache := { cache with hits := cache.hits + 1 }

/-- Count a look-up that made a new facade. -/
def noteMiss (cache : Cache) : Cache := { cache with misses := cache.misses + 1 }

/-- Keep a fault unless there is an earlier one. -/
def recordFault (cache : Cache) (fault : SemanticFault) : Cache :=
  { cache with fault := cache.fault.or (some fault) }

/-- Change the facade of a symbol. -/
def modifySymbol (cache : Cache) (symbol : SymbolId) (change : SymbolFacade → SymbolFacade) :
    Cache :=
  { cache with symbols := cache.symbols.modify symbol.index change }

/-- Remember that a binding is not a known type. -/
def bindUnknown (cache : Cache) (binding : BindingId) : Cache :=
  { cache with typeIndex := (binding, .unknown) :: cache.typeIndex }

/-- Add a type facade for a binding. A binding that has one already breaks the
identity of facades. -/
def pushType (cache : Cache) (binding : BindingId) (facade : TypeFacade) : TypeId × Cache :=
  let type : TypeId := ⟨cache.types.size⟩
  let grown :=
    { cache with
      types := cache.types.push facade
      typeIndex := (binding, type) :: cache.typeIndex }
  match cache.typeIndex.lookup binding with
  | some known => (type, grown.recordFault (.identityViolation binding known.index type.index))
  | none => (type, grown)

/-- Add a symbol facade for a binding. A binding that has one already breaks the
identity of facades. -/
def pushSymbol (cache : Cache) (binding : BindingId) (facade : SymbolFacade) :
    SymbolId × Cache :=
  let symbol : SymbolId := ⟨cache.symbols.size⟩
  let grown :=
    { cache with
      symbols := cache.symbols.push facade
      symbolIndex := (binding, symbol) :: cache.symbolIndex }
  match cache.symbolIndex.lookup binding with
  | some known => (symbol, grown.recordFault (.identityViolation binding known.index symbol.index))
  | none => (symbol, grown)

end Cache

/-- A computation that asks for facades and derived facts. -/
abbrev Query := StateM Cache

namespace Query

/-- Count an answer from the cache. -/
def noteHit : Query Unit := modify Cache.noteHit

/-- Count a new facade. -/
def noteMiss : Query Unit := modify Cache.noteMiss

/-- Report a fault. -/
def recordFault (fault : SemanticFault) : Query Unit := modify (·.recordFault fault)

/-- The facade of a symbol. -/
def readSymbol (symbol : SymbolId) : Query SymbolFacade := do
  return (← get).symbol symbol

/-- Change the facade of a symbol. -/
def modifySymbol (symbol : SymbolId) (change : SymbolFacade → SymbolFacade) : Query Unit :=
  modify (·.modifySymbol symbol change)

/-- Answer from what a symbol remembers, or compute the answer and remember it. -/
def memoized {Answer : Type} (slot : SymbolFacade → Option Answer)
    (store : Answer → SymbolFacade → SymbolFacade) (compute : SymbolFacade → Query Answer)
    (symbol : SymbolId) : Query Answer := do
  let facade ← readSymbol symbol
  match slot facade with
  | some answer =>
      noteHit
      return answer
  | none =>
      let answer ← compute facade
      modifySymbol symbol (store answer)
      return answer

/-- Take the first fault out of the cache. -/
def takeFault : Query (Option SemanticFault) :=
  modifyGet fun cache => (cache.fault, { cache with fault := none })

end Query

end JavaInspect
