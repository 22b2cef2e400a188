import JavaInspect.Binding.Table

/-!
# Chains of bindings

Many bindings link to one other binding: a declaration to the one around it, an
array type to its component type. A chain follows such links from binding to
binding.
-/

namespace JavaInspect

namespace Table

/-- Follow links through the bindings not yet visited. -/
def chainWithin (next : BindingId → Option BindingId) (unvisited : List BindingId)
    (binding : BindingId) : List BindingId :=
  match next binding with
  | none => []
  | some linked =>
      if _fresh : linked ∈ unvisited then
        linked :: chainWithin next (unvisited.erase linked) linked
      else [linked]
termination_by unvisited.length
decreasing_by
  have shorter := List.length_erase_of_mem _fresh
  have nonempty := List.length_pos_of_mem _fresh
  omega

/-- The bindings that links lead to, nearest first. On a cycle the chain ends with
the first binding that is met again. -/
def chain (table : Table) (next : BindingId → Option BindingId) (binding : BindingId) :
    List BindingId :=
  chainWithin next (table.bindings.erase binding) binding

/-- The owners of a binding from the inside out. -/
def owners (table : Table) (binding : BindingId) : List BindingId :=
  table.chain (fun declared => (table.entry declared).owner) binding

end Table

end JavaInspect
