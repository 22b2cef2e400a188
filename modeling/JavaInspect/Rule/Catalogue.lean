import JavaInspect.Rule.Key

/-!
# The rules of this library

The keys of the rules that come with the library, in the order in which they
are registered.
-/

namespace JavaInspect

namespace RuleKey

/-- Names of methods follow a format. -/
def badMethodName : RuleKey := ⟨"S100"⟩

/-- Methods and constructors take few parameters. -/
def tooManyParameters : RuleKey := ⟨"S107"⟩

/-- Overriding methods do more than call what they override. -/
def methodOnlyCallsSuper : RuleKey := ⟨"S1185"⟩

/-- Classes with uninitialised fields declare a constructor. -/
def atLeastOneConstructor : RuleKey := ⟨"S1258"⟩

/-- Servlets have no mutable state of their own. -/
def servletInstanceField : RuleKey := ⟨"S2226"⟩

/-- Parameters are not optional values. -/
def optionalAsParameter : RuleKey := ⟨"S3553"⟩

/-- Controllers end the sessions they keep attributes in. -/
def sessionAttributes : RuleKey := ⟨"S3753"⟩

/-- Text builders are asked directly whether they are empty. -/
def builderIsEmpty : RuleKey := ⟨"S7158"⟩

/-- Every rule of the library, in the order of registration. -/
def catalogue : List RuleKey :=
  [badMethodName, tooManyParameters, methodOnlyCallsSuper, atLeastOneConstructor,
    servletInstanceField, optionalAsParameter, sessionAttributes, builderIsEmpty]

end RuleKey

end JavaInspect
