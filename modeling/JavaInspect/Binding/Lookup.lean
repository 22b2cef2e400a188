import JavaInspect.Binding.Table

/-!
# Member lookup

Methods and fields are searched in a type and then in its ancestors, nearest
first: breadth-first along the superclass and the interfaces of each type. The
search visits each binding once, so it ends on cyclic hierarchies too.
-/

namespace JavaInspect

namespace Table

/-- The types directly above a type: its superclass, then its interfaces. -/
def parents (table : Table) (type : BindingId) : List BindingId :=
  (table.entry type).superclass.toList ++ (table.entry type).interfaces

/-- What a search may still put into its queue, with what is in it. -/
def searchLeft (table : Table) (unvisited queue : List BindingId) : Nat :=
  unvisited.length + (unvisited.flatMap table.parents).length + queue.length

theorem searchLeft_visit (table : Table) {unvisited : List BindingId} {current : BindingId}
    (fresh : current ∈ unvisited) (queue : List BindingId) :
    table.searchLeft (unvisited.erase current) (queue ++ table.parents current) <
      table.searchLeft unvisited (current :: queue) := by
  have visited := List.perm_cons_erase fresh
  have parents := (visited.flatMap_right table.parents).length_eq
  have visited := visited.length_eq
  rw [List.flatMap_cons, List.length_append] at parents
  rw [searchLeft, searchLeft, List.length_append, List.length_cons]
  rw [List.length_cons] at visited
  omega

theorem searchLeft_skip (table : Table) (unvisited : List BindingId) (current : BindingId)
    (queue : List BindingId) :
    table.searchLeft unvisited queue < table.searchLeft unvisited (current :: queue) :=
  Nat.add_lt_add_left (Nat.lt_succ_self _) _

/-- Breadth-first search from a queue through the bindings not yet visited. -/
def searchFrom (table : Table) (unvisited : List BindingId) : List BindingId → List BindingId
  | [] => []
  | current :: queue =>
      if _fresh : current ∈ unvisited then
        current :: table.searchFrom (unvisited.erase current) (queue ++ table.parents current)
      else table.searchFrom unvisited queue
termination_by queue => table.searchLeft unvisited queue
decreasing_by
  · exact table.searchLeft_visit _fresh queue
  · exact table.searchLeft_skip unvisited current queue

/-- A type and its ancestors, nearest first. -/
def hierarchy (table : Table) (type : BindingId) : List BindingId :=
  table.searchFrom table.bindings [type]

/-- The first method of the given name that a type declares itself and that
accepts a number of arguments. -/
def ownMethod? (table : Table) (type : BindingId) (name : String) (arity : Nat) :
    Option BindingId :=
  (table.entry type).members.find? fun member =>
    let entry := table.entry member
    entry.kind == .method && !entry.isConstructor && entry.name == name && entry.accepts arity

/-- The first field of the given name that a type declares itself. -/
def ownField? (table : Table) (type : BindingId) (name : String) : Option BindingId :=
  (table.entry type).members.find? fun member =>
    let entry := table.entry member
    entry.kind == .variable && entry.name == name

/-- The method of the given name that a type declares or inherits and that
accepts a number of arguments. -/
def findMethod (table : Table) (type : BindingId) (name : String) (arity : Nat) :
    Option BindingId :=
  (table.hierarchy type).findSome? fun ancestor => table.ownMethod? ancestor name arity

/-- The constructor of a type that accepts a number of arguments. -/
def findConstructor (table : Table) (type : BindingId) (arity : Nat) : Option BindingId :=
  (table.entry type).members.find? fun member =>
    let entry := table.entry member
    entry.isConstructor && entry.accepts arity

/-- The field of the given name that a type declares or inherits. -/
def findField (table : Table) (type : BindingId) (name : String) : Option BindingId :=
  (table.hierarchy type).findSome? fun ancestor => table.ownField? ancestor name

end Table

end JavaInspect
