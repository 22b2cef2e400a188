import JavaInspect.Detector
import JavaInspect.Rule.Catalogue
import JavaInspect.Semantics.Facade

/-!
# Optional values as parameters

An optional value is a result. As a parameter it adds a third case to the two that
callers have to think of anyway.
-/

namespace JavaInspect.Check.OptionalParameter

/-- The types of optional values with the type of the value inside; absent where
it is written as a type argument. -/
def optionalTypes : List (String × Option String) :=
  [("java.util.Optional", none), ("com.google.common.base.Optional", none),
    ("java.util.OptionalInt", some "int"), ("java.util.OptionalLong", some "long"),
    ("java.util.OptionalDouble", some "double")]

/-- The text between the first opening and the last closing angle bracket, without
blanks around it. -/
def typeArgument? (declaration : String) : Option String :=
  let opened := (declaration.toList.dropWhile (· != '<')).drop 1
  match Text.splitAtLast? '>' opened with
  | none => none
  | some (inside, _) =>
      let argument := Text.trim inside
      if argument = [] ∨ argument = ['?'] then none else some (String.ofList argument)

/-- The type of the value inside a parameter. -/
def wrappedType (known : Option String) (declaration : String) : String :=
  known.getD ((typeArgument? declaration).getD "Object")

/-- The article of a type name. -/
def article (name : String) : String :=
  match name.toList with
  | c :: _ => if ['a', 'e', 'i', 'o', 'u'].contains c then "an" else "a"
  | [] => "a"

/-- What is said about a parameter that wraps a value of the given type. -/
def message (wrapped : String) : String :=
  s!"Specify {article wrapped} \"{wrapped}\" parameter instead."

/-- The report at a parameter, if there is one. -/
def reportAt? (unit : SourceUnit) (parameter : NodeId) : Query (Option Report) := do
  match unit.tree.typeBinding parameter with
  | none => return none
  | some binding =>
      let type ← Query.typeOf unit.table binding
      let cache ← get
      match optionalTypes.find? fun (name, _) => cache.isNamed type name with
      | none => return none
      | some (_, known) =>
          let span := unit.tree.span parameter
          return some {
            message := message (wrappedType known (unit.text span))
            span }

/-- The reports at a method, one for every parameter that is an optional
value. -/
def reportsAt (unit : SourceUnit) (method : NodeId) : Query (List Report) := do
  let found ← (unit.tree.parameters method).mapM (reportAt? unit)
  return found.filterMap id

/-- The detector of parameters that are optional values. -/
def detector : Detector :=
  .ofQuery .optionalAsParameter [.method] reportsAt

end JavaInspect.Check.OptionalParameter
