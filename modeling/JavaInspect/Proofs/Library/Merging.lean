import JavaInspect.Proofs.Hierarchy.Lineage
import JavaInspect.Proofs.Library.Described

/-!
# Merged class paths

A class path without repeated names is nothing but its names in order and what it describes under
each of them. Merging inserts one type after another, and one insertion either replaces what is
described under a name or appends a name. So what merging makes of names and of descriptions
follows from single insertions, and the laws of merging from both together.
-/

namespace JavaInspect

namespace ClassPath

variable {path other third : ClassPath} {type : LibraryType} {types : List LibraryType}
  {name asked : String}

/-- The last description of a type. -/
def last? (path : ClassPath) (name : String) : Option LibraryType :=
  path.types.reverse.find? (·.name == name)

/-! ## Names and descriptions -/

theorem get?_eq_some_iff (distinct : path.names.Nodup) :
    path.get? name = some type ↔ type ∈ path.types ∧ type.name = name := by
  refine ⟨described_of_get?, ?_⟩
  rintro ⟨isType, rfl⟩
  cases found : path.get? type.name with
  | none => simpa using List.find?_eq_none.1 found type isType
  | some first =>
      rcases described_of_get? found with ⟨isFirst, sameName⟩
      rw [List.inj_on_of_nodup_map distinct isFirst isType sameName]

/-- Without repeated names the last description of a type is its first one. -/
theorem last?_eq_get? (distinct : path.names.Nodup) : path.last? name = path.get? name := by
  have reversed : (⟨path.types.reverse⟩ : ClassPath).names.Nodup := by
    rwa [names, List.map_reverse, List.nodup_reverse]
  have isLast : path.last? name = (⟨path.types.reverse⟩ : ClassPath).get? name := rfl
  apply Option.ext
  intro type
  rw [isLast, get?_eq_some_iff reversed, get?_eq_some_iff distinct, List.mem_reverse]

theorem map_get?_names (distinct : path.names.Nodup) :
    path.names.map path.get? = path.types.map some := by
  rw [names, List.map_map]
  apply List.map_congr_left
  intro type isType
  exact (get?_eq_some_iff distinct).2 ⟨isType, rfl⟩

/-- Names that are not repeated and what is described under them make up a class path. -/
theorem eq_of_same_descriptions (distinct : path.names.Nodup) (sameNames : other.names = path.names)
    (sameTypes : ∀ name, other.get? name = path.get? name) : other = path := by
  have otherDistinct : other.names.Nodup := sameNames ▸ distinct
  have sameList : other.types.map some = path.types.map some := by
    rw [← map_get?_names otherDistinct, ← map_get?_names distinct, sameNames, funext sameTypes]
  rcases other with ⟨types⟩
  exact congrArg mk (List.map_injective_iff.2 (Option.some_injective _) sameList)

/-! ## Inserting one type -/

theorem names_insert : (path.insert type).names =
    if type.name ∈ path.names then path.names else path.names ++ [type.name] := by
  rcases path with ⟨types⟩
  simp only [insert, names]
  induction types with
  | nil => rfl
  | cons known rest ih =>
      rw [insertInto]
      split
      case isTrue same => simp [same]
      case isFalse different =>
        rw [List.map_cons, ih]
        by_cases old : type.name ∈ rest.map (·.name) <;> simp [Ne.symm different, old]

theorem get?_insert : (path.insert type).get? asked =
    if type.name = asked then some type else path.get? asked := by
  rcases path with ⟨types⟩
  simp only [insert, get?]
  induction types with
  | nil => by_cases same : type.name = asked <;> simp [insertInto, same]
  | cons known rest ih =>
      rw [insertInto]
      split
      case isTrue same =>
        by_cases isAsked : type.name = asked
        · simp [isAsked]
        · simp [same, isAsked]
      case isFalse different =>
        by_cases isKnown : known.name = asked
        · have notAsked : type.name ≠ asked := fun isAsked => different (isKnown.trans isAsked.symm)
          simp [isKnown, notAsked]
        · simp [isKnown, ih]

theorem filter_insertInto : (insertInto type types).filter (·.name != name) =
    if type.name = name then types.filter (·.name != name)
    else insertInto type (types.filter (·.name != name)) := by
  induction types with
  | nil => by_cases same : type.name = name <;> simp [insertInto, same]
  | cons known rest ih =>
      rw [insertInto]
      split
      case isTrue same => by_cases isName : type.name = name <;> simp [insertInto, same, isName]
      case isFalse different =>
        by_cases isKnown : known.name = name
        · simpa [isKnown] using ih
        · by_cases isName : type.name = name
          · simpa [isKnown, isName] using ih
          · simpa [isKnown, isName, insertInto, different] using ih

theorem without_insert : (path.insert type).without name =
    if type.name = name then path.without name else (path.without name).insert type := by
  rw [insert, without, filter_insertInto, apply_ite mk]
  rfl

/-! ## Inserting one type after another -/

theorem merge_concat : path.merge ⟨types ++ [type]⟩ = (path.merge ⟨types⟩).insert type :=
  List.foldl_concat ..

/-- A further name is appended to those that are known or new if it is none of them. -/
theorem append_new_concat {known more : List String} :
    known ++ ((more ++ [name]).filter (· ∉ known)).eraseDups =
      if name ∈ known ++ (more.filter (· ∉ known)).eraseDups then
        known ++ (more.filter (· ∉ known)).eraseDups
      else known ++ (more.filter (· ∉ known)).eraseDups ++ [name] := by
  rw [List.filter_append]
  by_cases old : name ∈ known
  · simp [old]
  · simp only [List.filter_singleton, old, not_false_eq_true, decide_true, cond_true,
      eraseDups_concat, List.mem_append, false_or, List.mem_eraseDups]
    split
    · rfl
    · rw [List.append_assoc]

/-- The names stay where they are, and each new one is appended when it first appears. -/
theorem names_merge : (path.merge other).names =
    path.names ++ (other.names.filter (· ∉ path.names)).eraseDups := by
  rcases other with ⟨types⟩
  induction types using List.reverseRecOn with
  | nil => simp [merge, names]
  | append_singleton types type ih =>
      have concat : (⟨types ++ [type]⟩ : ClassPath).names =
          (⟨types⟩ : ClassPath).names ++ [type.name] := List.map_append
      rw [merge_concat, names_insert, ih, concat, append_new_concat]

theorem distinct_merge (distinct : path.names.Nodup) : (path.merge other).names.Nodup := by
  rw [names_merge, List.nodup_append]
  refine ⟨distinct, nodup_eraseDups, ?_⟩
  intro name isOld new isNew same
  rw [← same] at isNew
  simp [isOld] at isNew

theorem distinct_insert (distinct : path.names.Nodup) : (path.insert type).names.Nodup := by
  have mergeDistinct : (path.merge ⟨[type]⟩).names.Nodup := distinct_merge distinct
  exact mergeDistinct

theorem get?_merge : (path.merge other).get? asked =
    (other.last? asked).or (path.get? asked) := by
  rcases other with ⟨types⟩
  induction types using List.reverseRecOn with
  | nil => rfl
  | append_singleton types type ih =>
      rw [merge_concat, get?_insert, ih, last?, last?]
      by_cases isAsked : type.name = asked <;> simp [isAsked]

theorem without_merge :
    (path.merge other).without name = (path.without name).merge (other.without name) := by
  rcases other with ⟨types⟩
  induction types using List.reverseRecOn with
  | nil => rfl
  | append_singleton types type ih =>
      rw [merge_concat, without_insert, ih]
      by_cases isName : type.name = name
      · simp [without, isName]
      · simp [without, isName, merge_concat]

/-- Inserting into the class path that is merged comes to inserting afterwards. -/
theorem merge_insert (distinct : path.names.Nodup) (otherDistinct : other.names.Nodup) :
    path.merge (other.insert type) = (path.merge other).insert type := by
  have insertDistinct : (other.insert type).names.Nodup := distinct_insert otherDistinct
  apply eq_of_same_descriptions (distinct_insert (distinct_merge distinct))
  case sameNames =>
    rw [names_insert, names_merge, names_merge, names_insert]
    by_cases old : type.name ∈ other.names
    · by_cases older : type.name ∈ path.names <;> simp [old, older]
    · rw [if_neg old, append_new_concat]
  case sameTypes =>
    intro asked
    rw [get?_insert, get?_merge, get?_merge, last?_eq_get? insertDistinct,
      last?_eq_get? otherDistinct, get?_insert]
    by_cases isAsked : type.name = asked <;> simp [isAsked]

/-- Merging is associative. -/
theorem merge_merge (distinct : path.names.Nodup) (otherDistinct : other.names.Nodup) :
    (path.merge other).merge third = path.merge (other.merge third) := by
  rcases third with ⟨types⟩
  induction types using List.reverseRecOn with
  | nil => rfl
  | append_singleton types type ih =>
      rw [merge_concat, ih, merge_concat, merge_insert distinct (distinct_merge otherDistinct)]

theorem empty_merge (distinct : path.names.Nodup) : ({} : ClassPath).merge path = path := by
  apply eq_of_same_descriptions distinct
  case sameNames =>
    have noNames : ({} : ClassPath).names = [] := rfl
    rw [names_merge, noNames]
    simpa using eraseDups_of_nodup distinct
  case sameTypes =>
    intro asked
    rw [get?_merge, last?_eq_get? distinct]
    exact Option.or_none

/-! ## Leaving a type out -/

theorem names_without (distinct : path.names.Nodup) :
    (path.without name).names = path.names.erase name := by
  rw [distinct.erase_eq_filter, names, names, without, List.filter_map]
  rfl

theorem get?_without :
    (path.without name).get? asked = if asked = name then none else path.get? asked := by
  rw [get?, without, List.find?_filter]
  by_cases isName : asked = name
  · simp [isName]
  · rw [if_neg isName, get?]
    congr 1
    funext type
    by_cases isAsked : type.name = asked <;> simp [isAsked, isName]

/-- Merging into a class path without repeated names replaces what is described under the names it
has, each by the last description, and appends the new names in order. Without repeated names
merging is associative, the empty class path changes nothing on either side, leaving a name out
leaves out just that name, and it makes no difference whether that happens before or after
merging. -/
theorem merges_by_name (path other : ClassPath) (distinct : path.names.Nodup) :
    ((path.merge other).names.Nodup ∧
      (path.merge other).names =
        path.names ++ (other.names.filter (· ∉ path.names)).eraseDups ∧
      ∀ name, (path.merge other).get? name = (other.last? name).or (path.get? name)) ∧
    (other.names.Nodup → ∀ third : ClassPath,
      (path.merge other).merge third = path.merge (other.merge third)) ∧
    path.merge {} = path ∧ ({} : ClassPath).merge path = path ∧
    ∀ name,
      (path.without name).names = path.names.erase name ∧
      (∀ asked, (path.without name).get? asked =
        if asked = name then none else path.get? asked) ∧
      (path.merge other).without name = (path.without name).merge (other.without name) := by
  refine ⟨⟨distinct_merge distinct, names_merge, fun _ => get?_merge⟩, ?associative, rfl,
    empty_merge distinct, fun name => ⟨names_without distinct, fun _ => get?_without, without_merge⟩⟩
  exact fun otherDistinct _ => merge_merge distinct otherDistinct

/-- A class path that mentions a type twice. -/
def survey : ClassPath where
  types :=
    [ { name := "sea.Quay", kind := .interface },
      { name := "sea.Buoy" },
      { name := "sea.Quay", kind := .enum } ]

/-- Two class paths that share a type with it and with each other. -/
def harbour : ClassPath where
  types := [{ name := "sea.Pier" }, { name := "sea.Quay" }]

/-- A buoy besides, and a pier of another kind. -/
def chart : ClassPath where
  types := [{ name := "sea.Buoy", kind := .record }, { name := "sea.Pier", kind := .interface }]

theorem merges_by_name_harbour : harbour.names.Nodup ∧ chart.names.Nodup ∧
    (harbour.merge survey).names = ["sea.Pier", "sea.Quay", "sea.Buoy"] ∧
    ((harbour.merge survey).get? "sea.Quay").map (·.kind) = some .enum ∧
    (harbour.merge chart).merge survey = harbour.merge (chart.merge survey) ∧
    (harbour.merge survey).without "sea.Quay" =
      (harbour.without "sea.Quay").merge (survey.without "sea.Quay") := by
  have distinct : harbour.names.Nodup := by decide
  have chartDistinct : chart.names.Nodup := by decide
  obtain ⟨⟨-, names, descriptions⟩, -, -, -, withoutName⟩ := merges_by_name harbour survey distinct
  obtain ⟨-, associative, -⟩ := merges_by_name harbour chart distinct
  refine ⟨distinct, chartDistinct, ?names, ?last, associative chartDistinct survey,
    (withoutName "sea.Quay").2.2⟩
  case names =>
    rw [names]
    decide
  case last =>
    rw [descriptions]
    decide

end ClassPath

end JavaInspect
