import JavaInspect.Binding.Basic

/-!
# Structural faults

A fault is a broken promise of the bindings: it makes every finding derived
from them unreliable. An unresolved type is no fault.
-/

namespace JavaInspect

/-- A broken invariant of the semantic model. -/
inductive SemanticFault where
  /-- Following owners from the binding comes back to one already met. -/
  | ownerCycle (binding : BindingId) (name : String)
  /-- The binding is among its own supertypes. -/
  | supertypeCycle (binding : BindingId) (name : String)
  /-- A binding was given two facades. -/
  | identityViolation (binding : BindingId) (first second : Nat)
  /-- A cache ran out of indices. -/
  | capacityExceeded (what : String)
deriving DecidableEq, Repr, Inhabited

namespace SemanticFault

/-- The name of the kind of fault. -/
def label : SemanticFault → String
  | .ownerCycle .. => "OwnerCycle"
  | .supertypeCycle .. => "SupertypeCycle"
  | .identityViolation .. => "IdentityViolation"
  | .capacityExceeded .. => "CapacityExceeded"

/-- What a fault is reported as. -/
def message : SemanticFault → String
  | .ownerCycle binding name =>
      s!"owner chain of {name} ({binding.display}) does not terminate"
  | .supertypeCycle binding name =>
      s!"supertype hierarchy of {name} ({binding.display}) is cyclic"
  | .identityViolation binding first second =>
      s!"binding {binding.display} maps to two facades ({first} and {second})"
  | .capacityExceeded what =>
      s!"semantic context holds more {what} than it can index"

end SemanticFault

end JavaInspect
