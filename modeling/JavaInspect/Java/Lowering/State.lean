import JavaInspect.Binding.Lookup
import JavaInspect.Java.Header
import JavaInspect.Tree.Builder

/-!
# The state of lowering

Lowering turns the phrases of a source text into a syntax tree and the bindings
behind it. It grows a binding table and a tree, remembers which binding belongs
to which phrase, and keeps track of what is in scope: the classes and methods
around the current phrase, their type parameters, and the local names.
-/

namespace JavaInspect.Java

/-- A source text with its header. -/
structure Source where
  text : List Char
  header : Header
deriving Repr, Inhabited

namespace Source

/-- The text of a phrase. -/
def textOf (source : Source) (phrase : Phrase) : String := phrase.text source.text

end Source

/-- A class around the current phrase. -/
structure ClassScope where
  binding : BindingId
  typeParameters : List String := []
deriving DecidableEq, Repr, Inhabited

/-- A local variable or parameter in scope. -/
structure Local where
  binding : BindingId
  type : BindingId
deriving DecidableEq, Repr, Inhabited

/-- The local names declared in one block or parameter list, the latest
first. -/
abbrev Scope := List (String × Local)

/-- What lowering has built so far and what is in scope. All stacks hold the
innermost element first. -/
structure Lowering where
  table : Table
  builder : TreeBuilder
  /-- The bindings of phrases by the number of the phrase, the latest first. -/
  declared : List (Nat × BindingId) := []
  /-- Local and anonymous types by simple name, the latest first. -/
  localTypes : List (String × BindingId) := []
  classes : List ClassScope := []
  /-- The type parameters of the methods around the current phrase. -/
  methodTypeParameters : List (List String) := []
  methods : List BindingId := []
  scopes : List Scope := []
deriving Repr, Inhabited

/-- A step of lowering. -/
abbrev Lower := StateM Lowering

namespace Lower

/-- Make a binding. The table is out of the state meanwhile, so that it can grow in
place. -/
def bind (operation : Table → α × Table) : Lower α :=
  modifyGet fun state =>
    let table := state.table
    let state := { state with table := {} }
    let (value, table) := operation table
    (value, { state with table })

/-- Change the binding table. -/
def updateTable (change : Table → Table) : Lower Unit :=
  bind fun table => ((), change table)

/-- What is known about a binding. -/
def entry (binding : BindingId) : Lower Entry := do
  return (← get).table.entry binding

/-- Do something with the tree. The tree is out of the state meanwhile, so that it
can grow in place. -/
def grow (operation : TreeBuilder → α × TreeBuilder) : Lower α :=
  modifyGet fun state =>
    let builder := state.builder
    let state := { state with builder := { nodes := #[] } }
    let (value, builder) := operation builder
    (value, { state with builder })

/-- Complete a node. -/
def updateTree (change : TreeBuilder → TreeBuilder) : Lower Unit :=
  grow fun builder => ((), change builder)

/-- Close the innermost open node. -/
def finish : Lower Unit := do
  let _ ← grow TreeBuilder.finish

/-- Remember the binding of a phrase. -/
def declare (phrase : Phrase) (binding : BindingId) : Lower Unit :=
  modify fun state => { state with declared := (phrase.number, binding) :: state.declared }

/-- The binding that was declared for a phrase. -/
def declared? (phrase : Phrase) : Lower (Option BindingId) := do
  return (← get).declared.lookup phrase.number

/-- Do something inside a class. -/
def inClass (scope : ClassScope) (action : Lower α) : Lower α := do
  modify fun state => { state with classes := scope :: state.classes }
  let value ← action
  modify fun state => { state with classes := state.classes.tail }
  return value

/-- Do something inside a declaration with type parameters. -/
def withTypeParameters (names : List String) (action : Lower α) : Lower α := do
  modify fun state =>
    { state with methodTypeParameters := names :: state.methodTypeParameters }
  let value ← action
  modify fun state => { state with methodTypeParameters := state.methodTypeParameters.tail }
  return value

/-- Do something inside a method, if it has a binding. -/
def inMethod (method : Option BindingId) (action : Lower α) : Lower α := do
  match method with
  | none => action
  | some binding =>
      modify fun state => { state with methods := binding :: state.methods }
      let value ← action
      modify fun state => { state with methods := state.methods.tail }
      return value

/-- Do something inside a new scope of local names. -/
def inScope (action : Lower α) : Lower α := do
  modify fun state => { state with scopes := [] :: state.scopes }
  let value ← action
  modify fun state => { state with scopes := state.scopes.tail }
  return value

/-- Bring a local name into the innermost scope. -/
def addLocal (name : String) (meaning : Local) : Lower Unit :=
  modify fun state =>
    match state.scopes with
    | [] => state
    | scope :: scopes => { state with scopes := ((name, meaning) :: scope) :: scopes }

/-- The class around the current phrase. -/
def currentClass? : Lower (Option BindingId) := do
  return (← get).classes.head?.map (·.binding)

/-- The owner of local variables and types: the innermost method, or else the
innermost class, or else the package. -/
def currentOwner (source : Source) : Lower BindingId := do
  let state ← get
  match state.methods, state.classes with
  | method :: _, _ => return method
  | [], scope :: _ => return scope.binding
  | [], [] => bind fun table => table.package (source.header.package.getD "")

end Lower

end JavaInspect.Java
