import JavaInspect.Detector
import JavaInspect.Matcher
import JavaInspect.Rule.Catalogue
import JavaInspect.Semantics.Annotated

/-!
# Session attributes of controllers

A controller that keeps attributes in the session ends the session somewhere.
-/

namespace JavaInspect.Check.SessionAttributes

/-- The annotation of controllers. -/
def controllerName : String := "org.springframework.stereotype.Controller"

/-- The annotation of classes that keep attributes in the session. -/
def sessionAttributesName : String :=
  "org.springframework.web.bind.annotation.SessionAttributes"

/-- The calls that end a session. -/
def setComplete : MethodMatcher :=
  MethodMatcher.withoutParameters
    { owners := ["org.springframework.web.bind.support.SessionStatus"]
      ownerMatch := .inherited
      name := .oneOf ["setComplete"] }

/-- What is said about a controller that never ends its session. -/
def message : String :=
  "Add a call to \"setComplete()\" on the SessionStatus object in a \"@RequestMapping\" method."

/-- Whether an annotation is resolved to the one of classes that keep attributes in
the session. -/
def isSessionAttributes (unit : SourceUnit) (mark : NodeId) : Query Bool := do
  match unit.tree.binding mark with
  | none => return false
  | some binding =>
      let type ← Query.typeOf unit.table binding
      return (← get).isNamed type sessionAttributesName

/-- Whether a session is ended somewhere below a node. -/
def endsSession (unit : SourceUnit) (node : NodeId) : Query Bool :=
  (unit.tree.descendants node).anyM fun call =>
    if unit.tree.kind call == .methodInvocation then
      setComplete.matchesInvocation unit.table unit.tree call
    else pure false

/-- The report at a class, if there is one. -/
def reportsAt (unit : SourceUnit) (type : NodeId) : Query (List Report) := do
  if !(← Query.isMarkedBy unit type controllerName) then return []
  match ← (unit.tree.annotations type).findM? (isSessionAttributes unit) with
  | none => return []
  | some mark =>
      if ← endsSession unit type then return []
      return [{
        message
        span := unit.tree.span mark }]

/-- The detector of controllers that never end their session. -/
def detector : Detector :=
  .ofQuery .sessionAttributes [.class] reportsAt

end JavaInspect.Check.SessionAttributes
