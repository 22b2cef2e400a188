import JavaInspect.Configuration
import JavaInspect.Filter.Basic
import JavaInspect.Rule.Catalogue
import JavaInspect.Semantics.Annotated
import JavaInspect.Semantics.Subtype
import JavaInspect.Tree.Walk

/-!
# The framework filter

A framework has conventions that some rules do not know of: it fills in fields, so
that a class needs no constructor; it calls methods with many parameters; it reads
a query out of the name of a method; it wraps a method that only forwards. The
filter removes the findings that the conventions explain.
-/

namespace JavaInspect

namespace FrameworkFilter

/-- The annotation of what the framework fills in. -/
def autowiredName : String := "org.springframework.beans.factory.annotation.Autowired"

/-- The annotation of what runs in a transaction. -/
def transactionalName : String :=
  "org.springframework.transaction.annotation.Transactional"

/-- The type above all types whose methods are queries. -/
def repositoryName : String := "org.springframework.data.repository.Repository"

/-- The annotations of methods that may have many parameters. -/
def methodExceptions : List String :=
  ["org.springframework.web.bind.annotation.RequestMapping",
    "org.springframework.web.bind.annotation.GetMapping",
    "org.springframework.web.bind.annotation.PostMapping",
    "org.springframework.web.bind.annotation.PutMapping",
    "org.springframework.web.bind.annotation.DeleteMapping",
    "org.springframework.web.bind.annotation.PatchMapping",
    "org.springframework.context.annotation.Bean",
    autowiredName]

/-- The annotations of classes whose constructors may have many parameters. -/
def classExceptions : List String :=
  ["org.springframework.stereotype.Component",
    "org.springframework.context.annotation.Configuration",
    "org.springframework.stereotype.Service",
    "org.springframework.stereotype.Repository"]

/-- The rules whose findings the conventions may explain. -/
def scope : RuleScope :=
  .rules [.badMethodName, .tooManyParameters, .methodOnlyCallsSuper, .atLeastOneConstructor,
    .servletInstanceField, .optionalAsParameter]

/-- Whether a name has a part before and a part behind its first low line. -/
def hasInnerSeparator (name : String) : Bool :=
  let rest := name.toList.dropWhile (· != '_')
  name.toList.head? != some '_' && 1 < rest.length

variable (settings : FrameworkSettings) (unit : SourceUnit)

/-- Whether the framework fills in a variable. -/
def isAutowired (node : NodeId) : Query Bool :=
  Query.isAnnotated unit node autowiredName "Autowired"

/-- Exclude on account of a type: forwarding methods in a type that runs in
transactions, and the missing constructor of a type with a field that is filled
in. -/
def excludeForType (exclusions : Exclusions) (type : NodeId) : Query Exclusions := do
  let transactional ← Query.isAnnotated unit type transactionalName "Transactional"
  let fields := (unit.tree.members type).filter (unit.tree.kind · == .variable)
  let autowired ← fields.anyM (isAutowired unit)
  return exclusions.excludeLinesIf transactional .methodOnlyCallsSuper (unit.tree.span type)
    |>.excludeLinesIf autowired .atLeastOneConstructor (unit.tree.nameSpan type)

/-- Exclude on account of a variable: it is no state of a servlet if it is filled
in. -/
def excludeForVariable (exclusions : Exclusions) (node : NodeId) : Query Exclusions := do
  let autowired ← isAutowired unit node
  return exclusions.excludeLinesIf autowired .servletInstanceField (unit.tree.span node)

/-- Whether the class that a constructor belongs to may have many things filled
in. -/
def ownerIsExcepted (binding : BindingId) : Query Bool := do
  let symbol ← Query.symbolOf unit.table binding
  match ← Query.owner unit.table symbol with
  | none => return false
  | some owner =>
      let annotations ← Query.metadata unit.table owner
      let names := classExceptions ++ settings.classAnnotations
      return Metadata.isAnnotatedWithAny (← get) annotations names

/-- Exclude on account of a constructor: it may have many parameters if the
framework calls it. -/
def excludeForConstructor (exclusions : Exclusions) (node : NodeId) : Query Exclusions := do
  match unit.tree.binding node with
  | none => return exclusions
  | some binding =>
      let excepted ← ownerIsExcepted settings unit binding
      return exclusions.excludeLinesIf excepted .tooManyParameters (unit.tree.nameSpan node)

/-- Whether the name of a method is a query: it has a separator inside, and its
owner is below the type of all query interfaces. -/
def isQueryMethod (node : NodeId) (binding : BindingId) : Query Bool := do
  if !((unit.tree.name node).any hasInnerSeparator) then return false
  let symbol ← Query.symbolOf unit.table binding
  match ← Query.owner unit.table symbol with
  | none => return false
  | some owner =>
      let type ← Query.declaredType unit.table owner
      Query.isSubtypeOf unit.table type repositoryName

/-- The name of a method together with its parameter list. -/
def headerSpan (tree : Tree) (node : NodeId) : Span :=
  match tree.parameterList node with
  | some parameters => (tree.nameSpan node).join (tree.span parameters)
  | none => tree.nameSpan node

/-- Exclude on account of a method: many parameters and optional ones if the
framework calls it, and its name if it is a query. -/
def excludeForMethod (exclusions : Exclusions) (node : NodeId) : Query Exclusions := do
  match unit.tree.binding node with
  | none => return exclusions
  | some binding =>
      let symbol ← Query.symbolOf unit.table binding
      let annotations ← Query.metadata unit.table symbol
      let query ← isQueryMethod unit node binding
      let cache ← get
      let names := methodExceptions ++ settings.methodAnnotations
      let excepted := Metadata.isAnnotatedWithAny cache annotations names
      let autowired := Metadata.isAnnotatedWith cache annotations autowiredName
      let nameSpan := unit.tree.nameSpan node
      return exclusions.excludeLinesIf excepted .tooManyParameters nameSpan
        |>.excludeLinesIf query .badMethodName nameSpan
        |>.excludeLinesIf autowired .optionalAsParameter (headerSpan unit.tree node)

/-- Exclude on account of a node. -/
def excludeFor (exclusions : Exclusions) (node : NodeId) : Query Exclusions :=
  match unit.tree.kind node with
  | .class | .interface | .enum | .record | .annotationType => excludeForType unit exclusions node
  | .variable => excludeForVariable unit exclusions node
  | .constructor => excludeForConstructor settings unit exclusions node
  | .method => excludeForMethod settings unit exclusions node
  | _ => pure exclusions

/-- What is excluded from a unit, node by node. -/
def scan : Query Exclusions :=
  unit.tree.preorder.foldlM (excludeFor settings unit) {}

end FrameworkFilter

/-- The framework filter with further annotations. -/
def IssueFilter.framework (settings : FrameworkSettings) : IssueFilter :=
  { name := "framework"
    scope := FrameworkFilter.scope
    scan := FrameworkFilter.scan settings }

end JavaInspect
