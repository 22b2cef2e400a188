import JavaInspect.Document.Fields
import JavaInspect.Document.Natural
import JavaInspect.Document.Yaml
import JavaInspect.Pattern.Reading
import JavaInspect.Rule.Key

/-!
# Configuration

What a user can choose: the rules that are off, further class path files, the
settings of single rules, and the filters. Everything may be left out. A
configuration that can be read may still be invalid.
-/

namespace JavaInspect

open Document

/-- Settings of the rule on the number of parameters. -/
structure ParameterCountSettings where
  /-- The greatest number that is accepted. -/
  max : Option Nat := none
deriving DecidableEq, Repr, Inhabited

namespace ParameterCountSettings

/-- The greatest number accepted when none is chosen. -/
def defaultLimit : Nat := 7

/-- The greatest number of parameters that is accepted. -/
def limit (settings : ParameterCountSettings) : Nat := settings.max.getD defaultLimit

/-- The settings that a value describes. -/
def ofValue? (value : Value) : Option ParameterCountSettings := do
  let fields ← Fields.ofValue? ["max"] value
  return { max := ← fields.optional "max" (Value.asOption Value.asNatural) none }

/-- The settings as a value. -/
def toValue (settings : ParameterCountSettings) : Value :=
  .ofFields [("max", .ofOption .ofNat settings.max)]

end ParameterCountSettings

/-- Settings of the rule on the names of methods. -/
structure MethodNameSettings where
  /-- The pattern that a name has to match. -/
  format : Option String := none
deriving DecidableEq, Repr, Inhabited

namespace MethodNameSettings

/-- The pattern that names have to match when none is chosen: a small letter
followed by letters and digits. -/
def defaultFormat : String := "^[a-z][a-zA-Z0-9]*$"

/-- The text of the pattern that names have to match. -/
def formatText (settings : MethodNameSettings) : String :=
  settings.format.getD defaultFormat

/-- The settings that a value describes. -/
def ofValue? (value : Value) : Option MethodNameSettings := do
  let fields ← Fields.ofValue? ["format"] value
  return { format := ← fields.optional "format" (Value.asOption Value.asText) none }

/-- The settings as a value. -/
def toValue (settings : MethodNameSettings) : Value :=
  .ofFields [("format", .ofOption .string settings.format)]

end MethodNameSettings

/-- Settings of single rules. -/
structure RuleSettings where
  parameterCount : ParameterCountSettings := {}
  methodName : MethodNameSettings := {}
deriving DecidableEq, Repr, Inhabited

namespace RuleSettings

/-- The settings that a value describes. -/
def ofValue? (value : Value) : Option RuleSettings := do
  let fields ← Fields.ofValue? ["too_many_parameters", "bad_method_name"] value
  return {
    parameterCount :=
      ← fields.optional "too_many_parameters" ParameterCountSettings.ofValue? {}
    methodName := ← fields.optional "bad_method_name" MethodNameSettings.ofValue? {} }

/-- The settings as a value. -/
def toValue (settings : RuleSettings) : Value :=
  .ofFields
    [("too_many_parameters", settings.parameterCount.toValue),
      ("bad_method_name", settings.methodName.toValue)]

end RuleSettings

/-- Settings of the framework filter. -/
structure FrameworkSettings where
  enabled : Option Bool := none
  /-- Further annotations that exempt a method from the rule on the number of
  parameters. -/
  methodAnnotations : List String := []
  /-- Further annotations of classes that exempt their constructors from it. -/
  classAnnotations : List String := []
deriving DecidableEq, Repr, Inhabited

namespace FrameworkSettings

/-- Whether the filter is on; it is unless it is switched off. -/
def isEnabled (settings : FrameworkSettings) : Bool := settings.enabled.getD true

/-- The settings that a value describes. -/
def ofValue? (value : Value) : Option FrameworkSettings := do
  let names := ["enabled", "method_annotation_exceptions", "class_annotation_exceptions"]
  let fields ← Fields.ofValue? names value
  return {
    enabled := ← fields.optional "enabled" (Value.asOption Value.asTruth) none
    methodAnnotations :=
      ← fields.optional "method_annotation_exceptions" (Value.asList Value.asText) []
    classAnnotations :=
      ← fields.optional "class_annotation_exceptions" (Value.asList Value.asText) [] }

/-- The settings as a value. -/
def toValue (settings : FrameworkSettings) : Value :=
  .ofFields
    [("enabled", .ofOption .boolean settings.enabled),
      ("method_annotation_exceptions", .ofList .string settings.methodAnnotations),
      ("class_annotation_exceptions", .ofList .string settings.classAnnotations)]

end FrameworkSettings

/-- Settings of the filters. -/
structure FilterSettings where
  framework : FrameworkSettings := {}
  suppressWarnings : Option Bool := none
  inlineComments : Option Bool := none
deriving DecidableEq, Repr, Inhabited

namespace FilterSettings

/-- Whether annotations that suppress warnings are honoured. -/
def suppressWarningsEnabled (settings : FilterSettings) : Bool :=
  settings.suppressWarnings.getD true

/-- Whether directives in comments are honoured. -/
def inlineCommentsEnabled (settings : FilterSettings) : Bool :=
  settings.inlineComments.getD true

/-- The settings that a value describes. -/
def ofValue? (value : Value) : Option FilterSettings := do
  let names := ["framework", "suppress_warnings", "inline_comments"]
  let fields ← Fields.ofValue? names value
  return {
    framework := ← fields.optional "framework" FrameworkSettings.ofValue? {}
    suppressWarnings :=
      ← fields.optional "suppress_warnings" (Value.asOption Value.asTruth) none
    inlineComments :=
      ← fields.optional "inline_comments" (Value.asOption Value.asTruth) none }

/-- The settings as a value. -/
def toValue (settings : FilterSettings) : Value :=
  .ofFields
    [("framework", settings.framework.toValue),
      ("suppress_warnings", .ofOption .boolean settings.suppressWarnings),
      ("inline_comments", .ofOption .boolean settings.inlineComments)]

end FilterSettings

/-- What a user has chosen. -/
structure Configuration where
  version : String := ""
  /-- The written names of the rules that are off. -/
  disabledRules : List String := []
  parallel : Option Bool := none
  /-- Files with class paths that are merged over the one of the library. -/
  classPathFiles : List String := []
  rules : RuleSettings := {}
  filters : FilterSettings := {}
deriving DecidableEq, Repr, Inhabited

/-- Why a configuration is invalid. -/
inductive ConfigurationError where
  /-- The format of method names is no pattern. -/
  | badFormat (format : String)
  /-- No number of parameters would be accepted. -/
  | noParameters
deriving DecidableEq, Repr, Inhabited

namespace ConfigurationError

/-- What an invalid configuration is reported as. -/
def message : ConfigurationError → String
  | .badFormat format => s!"invalid bad_method_name format {format}"
  | .noParameters => "too_many_parameters max must be positive"

end ConfigurationError

namespace Configuration

/-- Whether units may be analysed side by side. -/
def isParallel (configuration : Configuration) : Bool := configuration.parallel.getD true

/-- Whether a rule is on: its name is not the name of a rule that is off. -/
def isRuleEnabled (configuration : Configuration) (key : String) : Bool :=
  !configuration.disabledRules.any fun written => ruleName written == ruleName key

/-- The configuration that a value describes. -/
def ofValue? (value : Value) : Option Configuration := do
  let names :=
    ["version", "disabled_rules", "parallel", "class_path", "rules", "filters"]
  let fields ← Fields.ofValue? names value
  return {
    version := ← fields.optional "version" Value.asText ""
    disabledRules := ← fields.optional "disabled_rules" (Value.asList Value.asText) []
    parallel := ← fields.optional "parallel" (Value.asOption Value.asTruth) none
    classPathFiles := ← fields.optional "class_path" (Value.asList Value.asText) []
    rules := ← fields.optional "rules" RuleSettings.ofValue? {}
    filters := ← fields.optional "filters" FilterSettings.ofValue? {} }

/-- The configuration as a value, with every field. -/
def toValue (configuration : Configuration) : Value :=
  .ofFields
    [("version", .string configuration.version),
      ("disabled_rules", .ofList .string configuration.disabledRules),
      ("parallel", .ofOption .boolean configuration.parallel),
      ("class_path", .ofList .string configuration.classPathFiles),
      ("rules", configuration.rules.toValue),
      ("filters", configuration.filters.toValue)]

/-- The configuration of a document. -/
def ofYaml? (text : String) : Option Configuration :=
  (Value.ofYaml? text).bind ofValue?

/-- The pattern that method names have to match. -/
def methodNamePattern (configuration : Configuration) : Except ConfigurationError Pattern :=
  let format := configuration.rules.methodName.formatText
  match Pattern.ofText? format with
  | some pattern => .ok pattern
  | none => .error (.badFormat format)

/-- Check what can be read and is wrong nevertheless; the format of method names
first. -/
def validate (configuration : Configuration) : Except ConfigurationError Unit := do
  let _ ← configuration.methodNamePattern
  if configuration.rules.parameterCount.max = some 0 then throw .noParameters

end Configuration

end JavaInspect
