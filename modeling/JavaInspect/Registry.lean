import JavaInspect.Check.BuilderEmptiness
import JavaInspect.Check.ForwardingOverride
import JavaInspect.Check.MethodName
import JavaInspect.Check.MissingConstructor
import JavaInspect.Check.OptionalParameter
import JavaInspect.Check.ParameterCount
import JavaInspect.Check.ServletField
import JavaInspect.Check.SessionAttributes
import JavaInspect.Configuration

/-!
# Registries

A registry lists detectors under the keys by which they can be taken out again. A
detector may report under another key than the one it is listed under.
-/

namespace JavaInspect

/-- Detectors in the order of registration, each under a key. -/
structure Registry where
  entries : List (RuleKey × Detector) := []

namespace Registry

/-- Add a detector at the end. -/
def register (registry : Registry) (key : RuleKey) (detector : Detector) : Registry :=
  ⟨registry.entries ++ [(key, detector)]⟩

/-- Take out every detector that is listed under a key. -/
def remove (registry : Registry) (key : RuleKey) : Registry :=
  ⟨registry.entries.filter (·.1 != key)⟩

/-- The number of detectors. -/
def size (registry : Registry) : Nat := registry.entries.length

/-- Whether there is no detector. -/
def isEmpty (registry : Registry) : Bool := registry.entries.isEmpty

/-- The keys that detectors are listed under. -/
def keys (registry : Registry) : List RuleKey := registry.entries.map (·.1)

/-- The detectors. -/
def detectors (registry : Registry) : List Detector := registry.entries.map (·.2)

/-- List a detector under the key it reports under. -/
def entryOf (detector : Detector) : RuleKey × Detector := (detector.key, detector)

/-- All rules of the library. -/
def complete (rules : RuleSettings) (namePattern : Pattern) : Registry :=
  let detectors :=
    [Check.MethodName.detector rules.methodName.formatText namePattern,
      Check.ParameterCount.detector rules.parameterCount.limit,
      Check.ForwardingOverride.detector,
      Check.MissingConstructor.detector,
      Check.ServletField.detector,
      Check.OptionalParameter.detector,
      Check.SessionAttributes.detector,
      Check.BuilderEmptiness.detector]
  ⟨detectors.map entryOf⟩

/-- The rules of the library that a configuration leaves on. It fails if the format
of method names is no pattern. -/
def ofConfiguration (configuration : Configuration) : Except ConfigurationError Registry :=
  match configuration.methodNamePattern with
  | .error error => .error error
  | .ok pattern =>
      let disabled :=
        RuleKey.catalogue.filter fun key => !configuration.isRuleEnabled key.name
      .ok (disabled.foldl remove (complete configuration.rules pattern))

end Registry

end JavaInspect
