import JavaInspect.Document.Fields
import JavaInspect.Document.Yaml
import JavaInspect.Library.ClassPath

/-!
# Class paths in documents

A class path document lists library types by their fields. Of a type only the
name must be given. What is written holds every field.
-/

namespace JavaInspect

open Document

namespace LibraryKind

/-- The kind that a value names. -/
def ofValue? : Decoder LibraryKind
  | .mapping [(name, .null)] => name.asKey.bind ofLabel?
  | value => value.asText.bind ofLabel?

end LibraryKind

namespace LibraryField

/-- The field that a value describes. -/
def ofValue? (value : Value) : Option LibraryField := do
  let fields ← Fields.ofValue? ["name", "type"] value
  return {
    name := ← fields.required "name" Value.asText
    type := ← fields.required "type" Value.asText }

/-- The description of a field. -/
def toValue (field : LibraryField) : Value :=
  .ofFields [("name", .string field.name), ("type", .string field.type)]

end LibraryField

namespace LibraryConstructor

/-- The constructor that a value describes. -/
def ofValue? (value : Value) : Option LibraryConstructor := do
  let fields ← Fields.ofValue? ["parameters", "varargs"] value
  return {
    parameters := ← fields.optional "parameters" (Value.asList Value.asText) []
    varargs := ← fields.optional "varargs" Value.asTruth false }

/-- The description of a constructor. -/
def toValue (constructor : LibraryConstructor) : Value :=
  .ofFields
    [("parameters", .ofList .string constructor.parameters),
      ("varargs", .boolean constructor.varargs)]

end LibraryConstructor

namespace LibraryMethod

/-- The method that a value describes. -/
def ofValue? (value : Value) : Option LibraryMethod := do
  let names := ["name", "parameters", "returns", "varargs", "annotations"]
  let fields ← Fields.ofValue? names value
  return {
    name := ← fields.required "name" Value.asText
    parameters := ← fields.optional "parameters" (Value.asList Value.asText) []
    returns := ← fields.optional "returns" (Value.asOption Value.asText) none
    varargs := ← fields.optional "varargs" Value.asTruth false
    annotations := ← fields.optional "annotations" (Value.asList Value.asText) [] }

/-- The description of a method. -/
def toValue (method : LibraryMethod) : Value :=
  .ofFields
    [("name", .string method.name), ("parameters", .ofList .string method.parameters),
      ("returns", .ofOption .string method.returns), ("varargs", .boolean method.varargs),
      ("annotations", .ofList .string method.annotations)]

end LibraryMethod

namespace LibraryType

/-- The library type that a value describes. -/
def ofValue? (value : Value) : Option LibraryType := do
  let names :=
    ["name", "kind", "superclass", "interfaces", "annotations", "fields", "constructors",
      "methods"]
  let fields ← Fields.ofValue? names value
  return {
    name := ← fields.required "name" Value.asText
    kind := ← fields.optional "kind" LibraryKind.ofValue? .class
    superclass := ← fields.optional "superclass" (Value.asOption Value.asText) none
    interfaces := ← fields.optional "interfaces" (Value.asList Value.asText) []
    annotations := ← fields.optional "annotations" (Value.asList Value.asText) []
    fields := ← fields.optional "fields" (Value.asList LibraryField.ofValue?) []
    constructors :=
      ← fields.optional "constructors" (Value.asList LibraryConstructor.ofValue?) []
    methods := ← fields.optional "methods" (Value.asList LibraryMethod.ofValue?) [] }

/-- The description of a library type. -/
def toValue (type : LibraryType) : Value :=
  .ofFields
    [("name", .string type.name), ("kind", .string type.kind.label),
      ("superclass", .ofOption .string type.superclass),
      ("interfaces", .ofList .string type.interfaces),
      ("annotations", .ofList .string type.annotations),
      ("fields", .ofList LibraryField.toValue type.fields),
      ("constructors", .ofList LibraryConstructor.toValue type.constructors),
      ("methods", .ofList LibraryMethod.toValue type.methods)]

end LibraryType

namespace ClassPath

/-- The class path that a value describes. -/
def ofValue? (value : Value) : Option ClassPath := do
  let fields ← Fields.ofValue? ["types"] value
  return ⟨← fields.optional "types" (Value.asList LibraryType.ofValue?) []⟩

/-- The class path of a document. -/
def ofYaml? (text : String) : Option ClassPath :=
  (Value.ofYaml? text).bind ofValue?

end ClassPath

end JavaInspect
