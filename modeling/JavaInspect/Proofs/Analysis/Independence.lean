import JavaInspect.Analysis.Files
import JavaInspect.Proofs.Analysis.Stepwise

/-!
# Independence of units

All that analyses of units share is the wish for their end, which is handed on from unit to unit.
Unless it comes up, what becomes of a unit depends on the unit alone: the analysis of a list of
units is put together from the analyses of each. It stays so if the units are analysed at once,
when the calls of the detectors of different units follow each other in any order. Files are read
before, in any order as well. With or without the wish, every unit and every file is accounted for
exactly once.
-/

namespace JavaInspect

namespace AnalysisResult

/-- The reports and the failures. -/
def entries (result : AnalysisResult) : List (UnitReport ⊕ UnitFailure) :=
  result.reports.map .inl ++ result.failures.map .inr

variable {first second third : AnalysisResult}

@[simp] theorem merge_empty : first.merge {} = first := by
  simp [merge]

@[simp] theorem empty_merge : merge {} first = first := by
  simp [merge]

theorem merge_assoc : (first.merge second).merge third = first.merge (second.merge third) := by
  simp [merge]

theorem foldl_merge (results : List AnalysisResult) :
    results.foldl merge first = first.merge (results.foldl merge {}) := by
  induction results generalizing first with
  | nil => simp
  | cons result rest ih =>
      have later : rest.foldl merge result = result.merge (rest.foldl merge {}) := ih
      rw [List.foldl_cons, List.foldl_cons, empty_merge, later, ih, merge_assoc]

end AnalysisResult

namespace Runner

variable (runner : Runner)

/-! ## Units one after another -/

/-- Nobody wishes for the end of the analyses of some units, neither before nor in one of them. -/
structure Uncancelled (units : List SourceUnit) : Prop where
  before : runner.cancelled = false
  inNone : ∀ unit ∈ units, (runner.analyzeThen unit).2 = false

/-- What a unit is reported as if its analysis fails. -/
def failureOf? (unit : SourceUnit) : Except AnalysisError UnitReport → Option UnitFailure
  | .ok _ => none
  | .error error => some { path := unit.path, error := error.message }

/-- A result holds the reports of the analyses that succeed, and the failures of the others, each
in the order of the units. -/
structure AccountsFor (units : List SourceUnit)
    (outcomes : List (Except AnalysisError UnitReport)) (result : AnalysisResult) : Prop where
  each : outcomes.length = units.length
  reports : result.reports = outcomes.filterMap Except.toOption
  failures : result.failures =
    (units.zip outcomes).filterMap fun (unit, outcome) => failureOf? unit outcome

variable {runner} {unit : SourceUnit} {units : List SourceUnit}
  {outcomes : List (Except AnalysisError UnitReport)}

namespace Uncancelled

theorem of_cons (uncancelled : runner.Uncancelled (unit :: units)) : runner.Uncancelled units where
  before := uncancelled.before
  inNone unit member := uncancelled.inNone unit (List.mem_cons_of_mem _ member)

/-- The runner is handed on as it is. -/
theorem outcomes_cons (uncancelled : runner.Uncancelled (unit :: units)) :
    runner.outcomes (unit :: units) = runner.analyze unit :: runner.outcomes units := by
  have same : { runner with cancelled := (runner.analyzeThen unit).2 } = runner := by
    rw [uncancelled.inNone unit List.mem_cons_self, ← uncancelled.before]
  show runner.analyze unit ::
    outcomes { runner with cancelled := (runner.analyzeThen unit).2 } units = _
  rw [same]

/-- Every unit comes to what it comes to alone. -/
theorem outcomes_eq (uncancelled : runner.Uncancelled units) :
    runner.outcomes units = units.map runner.analyze := by
  induction units with
  | nil => rfl
  | cons unit rest ih => rw [uncancelled.outcomes_cons, ih uncancelled.of_cons, List.map_cons]

end Uncancelled

theorem collect_cons {outcome : Except AnalysisError UnitReport} :
    collect (unit :: units) (outcome :: outcomes) =
      (outcomeOf unit.path outcome).merge (collect units outcomes) := by
  rw [collect, collect, List.zipWith_cons_cons, List.foldl_cons, AnalysisResult.empty_merge,
    AnalysisResult.foldl_merge]

theorem collect_append {before after : List SourceUnit}
    {first second : List (Except AnalysisError UnitReport)}
    (each : first.length = before.length) :
    collect (before ++ after) (first ++ second) =
      (collect before first).merge (collect after second) := by
  induction before generalizing first with
  | nil =>
      obtain rfl := List.length_eq_zero_iff.1 each
      simp [collect]
  | cons unit rest ih =>
      obtain ⟨outcome, outcomes, rfl⟩ := List.exists_cons_of_length_eq_add_one each
      rw [List.cons_append, List.cons_append, collect_cons, collect_cons,
        ih (Nat.succ.inj each), AnalysisResult.merge_assoc]

theorem length_outcomes (runner : Runner) (units : List SourceUnit) :
    (runner.outcomes units).length = units.length := by
  induction units generalizing runner with
  | nil => rfl
  | cons unit rest ih => simp [outcomes, ih]

theorem accountsFor_collect (each : outcomes.length = units.length) :
    AccountsFor units outcomes (collect units outcomes) := by
  induction units generalizing outcomes with
  | nil =>
      obtain rfl := List.length_eq_zero_iff.1 each
      exact ⟨rfl, rfl, rfl⟩
  | cons unit rest ih =>
      obtain ⟨outcome, outcomes, rfl⟩ := List.exists_cons_of_length_eq_add_one each
      obtain ⟨-, reports, failures⟩ := ih (Nat.succ.inj each)
      rw [collect_cons]
      constructor
      case each => exact each
      case reports =>
        cases outcome <;> simp [AnalysisResult.merge, outcomeOf, reports] <;> rfl
      case failures =>
        cases outcome <;> simp [AnalysisResult.merge, outcomeOf, failureOf?, failures]

/-- What becomes of a unit among others is what becomes of it alone. -/
theorem analyzeAll_insert {before after : List SourceUnit}
    (uncancelled : runner.Uncancelled (before ++ unit :: after)) :
    runner.analyzeAll (before ++ unit :: after) =
      ((runner.analyzeAll before).merge (runner.analyzeAll [unit])).merge
        (runner.analyzeAll after) := by
  have among {part : List SourceUnit} (inside : ∀ other ∈ part, other ∈ before ++ unit :: after) :
      runner.analyzeAll part = collect part (part.map runner.analyze) := by
    have uncancelledPart : runner.Uncancelled part :=
      ⟨uncancelled.before, fun other member => uncancelled.inNone other (inside other member)⟩
    rw [analyzeAll, uncancelledPart.outcomes_eq]
  rw [among fun _ => id, among (by simp +contextual), among (by simp),
    among (by simp +contextual), List.append_cons, List.map_append, List.map_append,
    collect_append (by simp), collect_append (by simp)]

/-! ## Units at once -/

/-- All units were analysed at once, in whatever order of the calls of their detectors, and
nobody has wished for the end. -/
def AnalyzesAtOnce (runner : Runner) (units : List SourceUnit)
    (outcomes : List (Except AnalysisError UnitReport)) : Prop :=
  Pool.Completes runner.analyses units runner.cancelled outcomes

theorem outcomes_eq_of_atOnce (atOnce : runner.AnalyzesAtOnce units outcomes) :
    runner.Uncancelled units ∧ outcomes = runner.outcomes units := by
  obtain ⟨uncancelled, comes⟩ := Pool.comesTo_of_completes atOnce
  clear atOnce
  induction comes with
  | nil => exact ⟨⟨uncancelled, by simp⟩, rfl⟩
  | cons here _ ih =>
      have analyzed := analyzeThen_of_comesTo uncancelled here
      have all : runner.Uncancelled _ :=
        ⟨uncancelled, List.forall_mem_cons.2 ⟨congrArg Prod.snd analyzed, ih.1.inNone⟩⟩
      refine ⟨all, ?_⟩
      rw [all.outcomes_cons, analyze, analyzed, ← ih.2]

theorem exists_atOnce (uncancelled : runner.cancelled = false)
    (never : ∀ unit ∈ units, ∀ detector ∈ runner.registry.detectors, detector.NeverWishes unit) :
    runner.Uncancelled units ∧ ∃ outcomes, runner.AnalyzesAtOnce units outcomes := by
  obtain ⟨outcomes, completes⟩ := Pool.exists_completes
    fun unit (member : unit ∈ units) => quiet_analyses (never unit member)
  rw [← uncancelled] at completes
  exact ⟨(outcomes_eq_of_atOnce completes).1, outcomes, completes⟩

/-! ## Files -/

/-- What becomes of files: those without a source unit fail, and the others come to the outcomes of
the analyses of their units. -/
def fileEntries : List (Except UnitFailure SourceUnit) →
    List (Except AnalysisError UnitReport) → List (UnitReport ⊕ UnitFailure)
  | .error failure :: files, outcomes => .inr failure :: fileEntries files outcomes
  | .ok _ :: files, .ok report :: outcomes => .inl report :: fileEntries files outcomes
  | .ok unit :: files, .error error :: outcomes =>
      .inr { path := unit.path, error := error.message } :: fileEntries files outcomes
  | .ok _ :: _, [] | [], _ => []

/-- A result holds every file exactly once. The reports are in the order of the files; the
failures are those of analyses in the order of the files, and behind them those of files without
a source unit in their order. -/
structure AccountsForFiles (files : List (Except UnitFailure SourceUnit))
    (outcomes : List (Except AnalysisError UnitReport)) (result : AnalysisResult) : Prop where
  each : outcomes.length = (unitsOf files).length
  reports : result.reports = outcomes.filterMap Except.toOption
  failures : result.failures =
    ((unitsOf files).zip outcomes).filterMap (fun (unit, outcome) => failureOf? unit outcome) ++
      failuresOf files
  entries : result.entries.Perm (fileEntries files outcomes)
  once : (fileEntries files outcomes).length = files.length

variable (frontEnd : FrontEnd) (read : FileReader)

/-- All files were read at once, in whatever order. -/
def ReadsAtOnce (paths : List String) (outcomes : List (Except UnitFailure SourceUnit)) : Prop :=
  Pool.Completes (.inOneStep (readUnit frontEnd read)) paths false outcomes

variable {frontEnd read} {paths : List String}
  {files : List (Except UnitFailure SourceUnit)}

theorem outcomes_eq_of_readsAtOnce (atOnce : ReadsAtOnce frontEnd read paths files) :
    files = paths.map (readUnit frontEnd read) := by
  obtain ⟨-, comes⟩ := Pool.comesTo_of_completes atOnce
  clear atOnce
  induction comes with
  | nil => rfl
  | cons here _ ih => rw [List.map_cons, Work.comesTo_inOneStep here, ← ih]

theorem exists_readsAtOnce : ∃ files, ReadsAtOnce frontEnd read paths files :=
  Pool.exists_completes fun path _ =>
    { opening := trivial, step := fun _ _ _ => ⟨trivial, rfl⟩ : Work.Quiet _ path fun _ => True }

@[simp] theorem unitsOf_ok : unitsOf (.ok unit :: files) = unit :: unitsOf files := rfl

@[simp] theorem unitsOf_error {failure : UnitFailure} :
    unitsOf (.error failure :: files) = unitsOf files := rfl

@[simp] theorem failuresOf_ok : failuresOf (.ok unit :: files) = failuresOf files := rfl

@[simp] theorem failuresOf_error {failure : UnitFailure} :
    failuresOf (.error failure :: files) = failure :: failuresOf files := rfl

/-- Every file is either reported on, or fails in one of two ways. -/
theorem perm_fileEntries (each : outcomes.length = (unitsOf files).length) : List.Perm
    ((outcomes.filterMap Except.toOption).map .inl ++
      ((((unitsOf files).zip outcomes).filterMap
          fun (unit, outcome) => failureOf? unit outcome).map .inr ++
        (failuresOf files).map .inr))
    (fileEntries files outcomes) ∧
    (fileEntries files outcomes).length = files.length := by
  induction files generalizing outcomes with
  | nil =>
      obtain rfl := List.length_eq_zero_iff.1 each
      exact ⟨.refl _, rfl⟩
  | cons file rest ih =>
      cases file with
      | error failure =>
          obtain ⟨perm, once⟩ := ih each
          rw [fileEntries, failuresOf_error, unitsOf_error, List.map_cons, ← List.append_assoc]
          rw [← List.append_assoc] at perm
          exact ⟨List.perm_middle.trans (perm.cons _), congrArg Nat.succ once⟩
      | ok unit =>
          obtain ⟨outcome, outcomes, rfl⟩ := List.exists_cons_of_length_eq_add_one each
          obtain ⟨perm, once⟩ := ih (Nat.succ.inj each)
          cases outcome with
          | ok report =>
              rw [fileEntries]
              exact ⟨perm.cons _, congrArg Nat.succ once⟩
          | error error =>
              rw [fileEntries]
              exact ⟨List.perm_middle.trans (perm.cons _), congrArg Nat.succ once⟩

theorem accountsForFiles_analyzeFilesWith (runner : Runner) (paths : List String) :
    AccountsForFiles (paths.map (readUnit frontEnd read))
      (runner.outcomes (unitsOf (paths.map (readUnit frontEnd read))))
      (runner.analyzeFilesWith frontEnd read paths) := by
  have each := length_outcomes runner (unitsOf (paths.map (readUnit frontEnd read)))
  have accounts := accountsFor_collect each
  obtain ⟨perm, once⟩ := perm_fileEntries each
  rw [analyzeFilesWith, analyzeAll, AnalysisResult.merge, accounts.reports, accounts.failures,
    List.append_nil]
  refine ⟨each, rfl, rfl, ?_, once⟩
  rw [AnalysisResult.entries, List.map_append]
  exact perm

/-! ## All together -/

/-- For every runner, all lists of units, all front ends and all lists of files: an analysis of
units holds the reports of those whose analyses succeed and the failures of the others, in order.
If nobody wishes for the end, the units come to what each of them comes to alone, and the analysis
is put together from the analyses of each. If the units are analysed at once and nobody wishes for
the end, the result is the same, in whatever order the detectors are called; the steps go on until
all analyses have ended, and they do end. If no detector wishes for the end, nobody does, and there
is such an analysis. An analysis of files holds every file once, also if the files are read and
analysed at once. -/
theorem units_independent (runner : Runner) :
    (∀ units, AccountsFor units (runner.outcomes units) (runner.analyzeAll units)) ∧
    (∀ units, runner.Uncancelled units → runner.outcomes units = units.map runner.analyze) ∧
    (∀ before unit after, runner.Uncancelled (before ++ unit :: after) →
      runner.analyzeAll (before ++ unit :: after) =
        ((runner.analyzeAll before).merge (runner.analyzeAll [unit])).merge
          (runner.analyzeAll after)) ∧
    (∀ units outcomes, runner.AnalyzesAtOnce units outcomes →
      collect units outcomes = runner.analyzeAll units) ∧
    (∀ units, WellFounded fun later pool : Pool runner.analyses units => Pool.Step pool later) ∧
    (∀ units, ∀ pool : Pool runner.analyses units,
      (∃ outcomes, pool.Finishes outcomes) ∨ ∃ later, Pool.Step pool later) ∧
    (∀ units, runner.cancelled = false →
      (∀ unit ∈ units, ∀ detector ∈ runner.registry.detectors, detector.NeverWishes unit) →
      runner.Uncancelled units ∧ ∃ outcomes, runner.AnalyzesAtOnce units outcomes) ∧
    ∀ frontEnd read paths,
      AccountsForFiles (paths.map (readUnit frontEnd read))
        (runner.outcomes (unitsOf (paths.map (readUnit frontEnd read))))
        (runner.analyzeFilesWith frontEnd read paths) ∧
      (∃ files, ReadsAtOnce frontEnd read paths files) ∧
      ∀ files outcomes, ReadsAtOnce frontEnd read paths files →
        runner.AnalyzesAtOnce (unitsOf files) outcomes →
        (collect (unitsOf files) outcomes).merge { failures := failuresOf files } =
          runner.analyzeFilesWith frontEnd read paths := by
  have atOnce : ∀ units outcomes, runner.AnalyzesAtOnce units outcomes →
      collect units outcomes = runner.analyzeAll units := by
    intro units outcomes completes
    rw [(outcomes_eq_of_atOnce completes).2, analyzeAll]
  refine ⟨fun units => accountsFor_collect (length_outcomes runner units),
    fun _ => Uncancelled.outcomes_eq, fun _ _ _ => analyzeAll_insert, atOnce,
    fun _ => Pool.wellFounded_step, fun _ => Pool.finishes_or_exists_step, fun _ => exists_atOnce,
    ?_⟩
  intro frontEnd read paths
  refine ⟨accountsForFiles_analyzeFilesWith runner paths, exists_readsAtOnce, ?_⟩
  intro files outcomes reads completes
  rw [atOnce _ _ completes, outcomes_eq_of_readsAtOnce reads, analyzeFilesWith]

end Runner

/-! ### Files of which some have no unit -/

theorem Detector.neverWishes_census {name : String} {kinds : List NodeKind} {type : BindingId}
    (unit : SourceUnit) : (census name kinds type).NeverWishes unit := by
  intro moment before unwished
  cases moment <;> exact unwished

namespace Runner

/-- A front end that knows two texts. -/
def twoTexts : FrontEnd :=
  { languageName := "sample"
    fileExtensions := ["java"]
    parse := fun _ text =>
      if text = "tangled" then .ok tangledUnit
      else if text = "class" then .ok Registration.classUnit
      else .error "unknown text" }

/-- Files with their texts. -/
def sampleFiles : List (String × String) :=
  [("a.txt", "class"), ("b.java", "class"), ("c.java", "broken"), ("d.java", "tangled"),
    ("f.java", "class")]

/-- Reads the sample files. -/
def readSample : FileReader := fun path =>
  (sampleFiles.lookup path).elim (.error FileReader.missing) .ok

/-- One detector that asks for the supertypes of a type. -/
def surveying : Runner :=
  { registry := ⟨[Registry.entryOf (.census "C" [.class] ⟨14⟩)]⟩ }

theorem units_independent_sample :
    let paths := ["a.txt", "b.java", "c.java", "d.java", "e.java", "f.java"]
    ∃ files outcomes, ReadsAtOnce twoTexts readSample paths files ∧
      surveying.Uncancelled (unitsOf files) ∧
      surveying.outcomes (unitsOf files) = (unitsOf files).map surveying.analyze ∧
      (∀ before unit after, unitsOf files = before ++ unit :: after →
        surveying.analyzeAll (unitsOf files) =
          ((surveying.analyzeAll before).merge (surveying.analyzeAll [unit])).merge
            (surveying.analyzeAll after)) ∧
      surveying.AnalyzesAtOnce (unitsOf files) outcomes ∧
      collect (unitsOf files) outcomes = surveying.analyzeAll (unitsOf files) ∧
      ((collect (unitsOf files) outcomes).merge { failures := failuresOf files }).reports.map
          (·.misses) = [1, 1] ∧
      ((collect (unitsOf files) outcomes).merge { failures := failuresOf files }).failures.map
          (·.error) =
        ["semantic model of Outer.java is unsound: supertype hierarchy of Knot (#14) is cyclic",
          "no sample front-end for a.txt", "unknown text", "os error"] := by
  intro paths
  obtain ⟨-, alone, insert, same, -, -, exist, ofFiles⟩ := units_independent surveying
  obtain ⟨-, ⟨files, reads⟩, sameFiles⟩ := ofFiles twoTexts readSample paths
  have never : ∀ unit ∈ unitsOf files, ∀ detector ∈ surveying.registry.detectors,
      detector.NeverWishes unit := by
    simp [surveying, Registry.detectors, Registry.entryOf, Detector.neverWishes_census]
  obtain ⟨uncancelled, outcomes, completes⟩ := exist (unitsOf files) rfl never
  have inserted (before : List SourceUnit) (unit : SourceUnit) (after : List SourceUnit)
      (split : unitsOf files = before ++ unit :: after) : surveying.analyzeAll (unitsOf files) =
        ((surveying.analyzeAll before).merge (surveying.analyzeAll [unit])).merge
          (surveying.analyzeAll after) := by
    rw [split] at uncancelled ⊢
    exact insert before unit after uncancelled
  refine ⟨files, outcomes, reads, uncancelled, alone _ uncancelled, inserted, completes,
    same _ _ completes, ?_⟩
  rw [sameFiles files outcomes reads completes]
  decide +kernel

end Runner

end JavaInspect
