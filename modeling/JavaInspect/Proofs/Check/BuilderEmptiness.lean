import JavaInspect.Check.BuilderEmptiness
import JavaInspect.Java.Frontend
import JavaInspect.Proofs.Java.Lowered

/-!
# Asking a builder instead of its text

The fix for a call that asks the text of a builder whether it is empty replaces all that stands
behind the builder, up to the end of the call. Where nothing stands in front of the builder, what
is left is the builder itself, and the question is put to it. Parentheses leave no node in the
tree: of a builder in parentheses the fix keeps the opening one and drops the closing one.
-/

namespace JavaInspect

/-! ## Brackets -/

namespace Text

/-- What closes the bracket that a character opens. -/
def closing? : Char → Option Char
  | '(' => some ')'
  | '[' => some ']'
  | '\x7b' => some '\x7d'
  | _ => none

/-- Whether a character closes a bracket. -/
def isClosing (character : Char) : Bool := [')', ']', '\x7d'].contains character

/-- Whether brackets are closed in order, those that are still pending first. -/
def balancedFrom : List Char → List Char → Bool
  | pending, [] => pending.isEmpty
  | pending, character :: rest =>
      match closing? character with
      | some closing => balancedFrom (closing :: pending) rest
      | none =>
          if isClosing character then
            match pending with
            | [] => false
            | first :: pending => first == character && balancedFrom pending rest
          else balancedFrom pending rest

/-- Whether every bracket of a text is closed, in order, and nothing else is. -/
def isBalanced (text : String) : Bool := balancedFrom [] text.toList

theorem balancedFrom_append {pending later first second : List Char}
    (isFirst : balancedFrom pending first = true) (isSecond : balancedFrom later second = true) :
    balancedFrom (pending ++ later) (first ++ second) = true := by
  induction first generalizing pending with
  | nil =>
      simp only [balancedFrom, List.isEmpty_iff] at isFirst
      simpa [isFirst] using isSecond
  | cons character rest ih =>
      rw [List.cons_append]
      unfold balancedFrom at isFirst ⊢
      cases opens : closing? character with
      | some closing =>
          simp only [opens] at isFirst ⊢
          exact ih isFirst
      | none =>
          simp only [opens] at isFirst ⊢
          split at isFirst
          case isTrue closes =>
            cases pending with
            | nil => cases isFirst
            | cons expected pending =>
                simp only [Bool.and_eq_true] at isFirst
                simp [closes, isFirst.1, ih isFirst.2]
          case isFalse other => simpa [other] using ih isFirst

theorem isBalanced_append {first second : String} (isFirst : isBalanced first = true)
    (isSecond : isBalanced second = true) : isBalanced (first ++ second) = true := by
  rw [isBalanced, String.toList_append]
  exact balancedFrom_append isFirst isSecond

theorem slice_self (characters : List Char) (offset : Nat) :
    slice characters offset offset = "" := by
  cases after : afterBytes? offset characters <;> simp [slice, slice?, after, firstBytes?]

end Text

/-! ## Edits -/

/-- What an edit makes of the text that a span covers. -/
def SourceUnit.textAfter (unit : SourceUnit) (span : Span) (edit : TextEdit) : String :=
  unit.text { span with endByte := edit.span.startByte } ++ edit.replacement ++
    unit.text { span with startByte := edit.span.endByte }

/-- The spans of a tree are nested. -/
def Tree.Nested (tree : Tree) : Prop :=
  ∀ node, ∀ child ∈ tree.children node, Java.Phrase.covers (tree.span node) (tree.span child)

theorem Tree.Nested.covers_receiver {tree : Tree} {node receiver : NodeId} (nested : tree.Nested)
    (isReceiver : tree.receiver node = some receiver) :
    Java.Phrase.covers (tree.span node) (tree.span receiver) :=
  nested node receiver (List.mem_of_find?_eq_some isReceiver)

/-- The spans of a lowered unit are nested. -/
theorem Java.Lowering.nested_lowered {root : Java.Phrase} (path : ClassPath)
    (source : Java.Source) (unit : root.Grammatical) :
    (lowered (.load {} path) source root).tree.Nested := by
  obtain ⟨news, advances⟩ := Lower.advances_lowerAll unit (Table.typed_load path) source
  intro node child isChild
  exact advances.wellFormed.nested child node
    (advances.sound.rooted.arranged.parent_of_child isChild)

/-! ## Reports of detectors that remember nothing -/

namespace Detector

variable {key : RuleKey} {kinds : List NodeKind} {unit : SourceUnit}
  {reportsAt : SourceUnit → NodeId → Query (List Report)}

theorem reports_forM (reports : List Report) (before : Call Unit) :
    ((reports.forM (fun report => Visit.report report.span report.message report.fix) :
        Visit Unit Unit).run.run before).2.reports = before.reports ++ reports := by
  induction reports generalizing before with
  | nil => exact (List.append_nil _).symm
  | cons report rest ih =>
      have later := ih { before with reports := before.reports ++ [report] }
      rw [List.append_assoc] at later
      exact later

/-- What is reported at a call is what the query finds at the node that is entered. -/
theorem mem_reports_ofQuery {moment : Moment} {before : Call Unit} (fresh : before.reports = [])
    {report : Report}
    (reported : report ∈
      (((ofQuery key kinds reportsAt).call unit moment).run.run before).2.reports) :
    ∃ node, moment = .enter node ∧
      report ∈ ((reportsAt unit node).run before.session.cache).1 := by
  obtain ⟨memory, session, reports⟩ := before
  subst fresh
  cases moment with
  | enter node =>
      have reports := reports_forM ((reportsAt unit node).run session.cache).1
        { memory
          session := { session with cache := ((reportsAt unit node).run session.cache).2 } }
      rw [List.nil_append] at reports
      exact ⟨node, rfl, (congrArg (report ∈ ·) reports).mp reported⟩
  | start | exit | stop => cases reported

end Detector

namespace Check.BuilderEmptiness

open Java.Phrase

variable {unit : SourceUnit} {call : NodeId} {cache : Cache} {report : Report} {fix : QuickFix}

theorem run_bind {First Second : Type} {query : Query First} {goOn : First → Query Second} :
    (query >>= goOn).run cache = (goOn (query.run cache).1).run (query.run cache).2 := rfl

/-- A fix is offered for calls that ask a text whether it is empty. -/
theorem fix_of_mem_reportsAt (reported : report ∈ ((reportsAt unit call).run cache).1)
    (isFix : report.fix = some fix) :
    report.span = unit.tree.span call ∧ quickFix? unit.tree call = some fix := by
  rw [reportsAt, run_bind] at reported
  split at reported
  · obtain rfl := List.mem_singleton.1 reported
    exact ⟨rfl, isFix⟩
  · -- The other reports come without a fix.
    have noFix : report.fix = none := by
      rw [run_bind] at reported
      split at reported
      · split at reported
        · split at reported
          · exact List.mem_singleton.1 reported ▸ rfl
          · cases reported
        · cases reported
      · rw [run_bind] at reported
        split at reported
        · exact List.mem_singleton.1 reported ▸ rfl
        · cases reported
    rw [noFix] at isFix
    cases isFix

/-- What an edit does that mends a call. It replaces what stands behind the builder, up to the
end of the call, so that what stands in front of that place is left. It stays inside the call,
provided that the builder does not end before it begins. Where the call begins with the builder,
what is left is the builder itself, and brackets that were balanced in it stay so. -/
structure Mends (unit : SourceUnit) (call builder : NodeId) (edit : TextEdit) : Prop where
  start : edit.span.startByte = (unit.tree.span builder).endByte
  stop : edit.span.endByte = (unit.tree.span call).endByte
  forward : edit.span.startByte ≤ edit.span.endByte
  inside : (unit.tree.span builder).startByte ≤ (unit.tree.span builder).endByte →
    covers (unit.tree.span call) edit.span
  result : unit.textAfter (unit.tree.span call) edit =
    unit.text { unit.tree.span call with endByte := (unit.tree.span builder).endByte } ++
      ".isEmpty()"
  plain : (unit.tree.span builder).startByte = (unit.tree.span call).startByte →
    unit.textAfter (unit.tree.span call) edit =
      unit.text (unit.tree.span builder) ++ ".isEmpty()" ∧
    (Text.isBalanced (unit.text (unit.tree.span builder)) = true →
      Text.isBalanced (unit.textAfter (unit.tree.span call) edit) = true)

theorem mends {text builder : NodeId} (nested : unit.tree.Nested)
    (isText : unit.tree.receiver call = some text)
    (isBuilder : unit.tree.receiver text = some builder) :
    Mends unit call builder
      { span := spanBehind (unit.tree.span builder) (unit.tree.span call)
        replacement := emptinessCall } := by
  have covered := covers_trans (nested.covers_receiver isText) (nested.covers_receiver isBuilder)
  simp only [covers, Bool.and_eq_true, decide_eq_true_eq] at covered
  have nothingBehind : unit.text
      { unit.tree.span call with startByte := (unit.tree.span call).endByte } = "" :=
    Text.slice_self _ _
  have result : unit.textAfter (unit.tree.span call)
      { span := spanBehind (unit.tree.span builder) (unit.tree.span call)
        replacement := emptinessCall } =
      unit.text { unit.tree.span call with endByte := (unit.tree.span builder).endByte } ++
        ".isEmpty()" := by
    simp [SourceUnit.textAfter, spanBehind, nothingBehind, emptinessCall]
  constructor
  case start => rfl
  case stop => rfl
  case forward => exact covered.2
  case inside =>
    intro forward
    have startsInside := Nat.le_trans covered.1 forward
    simp [covers, spanBehind, startsInside]
  case result => exact result
  case plain =>
    intro sameStart
    have sameText : unit.text
        { unit.tree.span call with endByte := (unit.tree.span builder).endByte } =
        unit.text (unit.tree.span builder) := by
      rw [SourceUnit.text, SourceUnit.text, sameStart]
    rw [result, sameText]
    exact ⟨rfl, fun balanced => Text.isBalanced_append balanced rfl⟩

/-- Whatever the detector reports with a fix is a call on a text made of a builder, the fix is one
edit, and the edit mends the call. This is so in the source unit of every text that was read without
syntax errors, over every class path. -/
theorem fix_mends {root : Java.Phrase} (path : ClassPath) (name text : String)
    (grammatical : root.Grammatical) (moment : Moment) (before : Call detector.Memory)
    (fresh : before.reports = []) :
    ∀ finding ∈ ((detector.call ((Java.Frontend.ofClassPath path).unitOf name text root)
        moment).run.run before).2.findings detector.key, ∀ fix ∈ finding.fix,
      ∃ call made builder edit,
        moment = .enter call ∧
        finding.span = ((Java.Frontend.ofClassPath path).unitOf name text root).tree.span call ∧
        ((Java.Frontend.ofClassPath path).unitOf name text root).tree.receiver call = some made ∧
        ((Java.Frontend.ofClassPath path).unitOf name text root).tree.receiver made =
          some builder ∧
        fix.edits = [edit] ∧
        Mends ((Java.Frontend.ofClassPath path).unitOf name text root) call builder edit := by
  intro finding found fix isFix
  obtain ⟨report, reported, rfl⟩ := List.mem_map.1 found
  obtain ⟨call, rfl, atCall⟩ := Detector.mem_reports_ofQuery fresh reported
  obtain ⟨isSpan, isQuickFix⟩ := fix_of_mem_reportsAt atCall isFix
  obtain ⟨made, isMade, isQuickFix⟩ := Option.bind_eq_some_iff.1 isQuickFix
  obtain ⟨builder, isBuilder, isQuickFix⟩ := Option.bind_eq_some_iff.1 isQuickFix
  obtain rfl := Option.some.inj isQuickFix
  have nested : ((Java.Frontend.ofClassPath path).unitOf name text root).tree.Nested := by
    rw [Java.Frontend.unitOf, Java.Lowering.ofPhrase_eq]
    exact Java.Lowering.nested_lowered path _ grammatical
  exact ⟨call, made, builder, _, rfl, isSpan, isMade, isBuilder, rfl,
    mends nested isMade isBuilder⟩

/-! ### Builders with and without parentheses -/

/-- A text and a builder. -/
def textPath : ClassPath :=
  ⟨[{ name := textType, methods := [LibraryType.method "isEmpty" [] "boolean"] },
    { name := "java.lang.StringBuilder"
      methods := [LibraryType.method "toString" [] textType] }]⟩

/-- What the detector finds when it enters a node of a source text. -/
def findingsOn (text : String) (node : NodeId) : List Finding :=
  ((detector.call ((Java.Frontend.ofClassPath textPath).unit "A.java" text) (.enter node)).run.run
    { memory := (), session := {} }).2.findings detector.key

/-- Stretches of a source text that findings cover, and what the edits of their fixes make of
them. -/
def rewritings (text : String) (findings : List Finding) : List (String × String) :=
  findings.flatMap fun finding =>
    (finding.fix.toList.flatMap (·.edits)).map fun edit =>
      (((Java.Frontend.ofClassPath textPath).unit "A.java" text).text finding.span,
        ((Java.Frontend.ofClassPath textPath).unit "A.java" text).textAfter finding.span edit)

/-- A builder that nothing stands in front of. -/
def plainText : String := "class A { boolean f(StringBuilder sb) { return sb.toString().isEmpty(); } }"

theorem rewritings_plainText : (Java.parse plainText.toList).Grammatical ∧
    rewritings plainText (findingsOn plainText ⟨7⟩) =
      [("sb.toString().isEmpty()", "sb.isEmpty()")] := by
  decide +kernel

theorem fix_mends_plainText : (Java.parse plainText.toList).Grammatical ∧
    ∃ finding ∈ findingsOn plainText ⟨7⟩, ∃ fix ∈ finding.fix, ∃ builder edit,
      fix.edits = [edit] ∧
      Mends ((Java.Frontend.ofClassPath textPath).unit "A.java" plainText) ⟨7⟩ builder edit := by
  obtain ⟨grammatical, rewrites⟩ := rewritings_plainText
  have offered : ∃ finding ∈ findingsOn plainText ⟨7⟩, ∃ fix, finding.fix = some fix := by
    by_contra noFix
    have nothing : rewritings plainText (findingsOn plainText ⟨7⟩) = [] := by
      refine List.flatMap_eq_nil_iff.2 fun finding found => ?_
      cases isFix : finding.fix with
      | none => rfl
      | some fix => exact absurd ⟨finding, found, fix, isFix⟩ noFix
    rw [rewrites] at nothing
    cases nothing
  obtain ⟨finding, found, fix, isFix⟩ := offered
  obtain ⟨call, made, builder, edit, atCall, -, -, -, isEdit, mends⟩ :=
    fix_mends textPath "A.java" plainText grammatical (.enter ⟨7⟩) { memory := (), session := {} }
      rfl finding found fix isFix
  obtain rfl := Moment.enter.inj atCall
  exact ⟨grammatical, finding, found, fix, isFix, builder, edit, isEdit, mends⟩

/-- A builder in parentheses. -/
def wrappedText : String :=
  "class A { boolean f(StringBuilder sb) { return (sb).toString().isEmpty(); } }"

/-- Of a builder in parentheses, the fix drops the closing one. -/
theorem unbalanced_wrappedText : (Java.parse wrappedText.toList).Grammatical ∧
    rewritings wrappedText (findingsOn wrappedText ⟨7⟩) =
      [("(sb).toString().isEmpty()", "(sb.isEmpty()")] ∧
    Text.isBalanced "(sb).toString().isEmpty()" = true ∧
    Text.isBalanced "(sb.isEmpty()" = false := by
  decide +kernel

end Check.BuilderEmptiness

end JavaInspect
