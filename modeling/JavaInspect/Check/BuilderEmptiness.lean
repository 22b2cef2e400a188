import JavaInspect.Detector
import JavaInspect.Matcher
import JavaInspect.Rule.Catalogue

/-!
# Emptiness of text builders

A text builder can be asked whether it is empty; there is no need to make a text
of it first. Three spellings of the question are recognised: asking the text
whether it is empty, comparing its length with zero, and comparing it with the
empty text.
-/

namespace JavaInspect.Check.BuilderEmptiness

/-- The qualified name of the type of texts. -/
def textType : String := "java.lang.String"

/-- The qualified names of the types of text builders. -/
def builderTypes : List String := ["java.lang.StringBuilder", "java.lang.StringBuffer"]

/-- The method of a type with a name and parameters of the given types. -/
def methodOf (type name : String) (parameters : List String) : MethodMatcher :=
  { owners := [type], name := .oneOf [name], parameters := .exact parameters }

/-- The methods that make a text of a builder. -/
def toText : MatcherSet :=
  ⟨builderTypes.map fun builder => methodOf builder "toString" []⟩

/-- The method that asks a text whether it is empty. -/
def isEmptyMethod : MethodMatcher := methodOf textType "isEmpty" []

/-- The method that asks a text for its length. -/
def lengthMethod : MethodMatcher := methodOf textType "length" []

/-- The method that compares a text with something. -/
def equalsMethod : MethodMatcher := methodOf textType "equals" ["java.lang.Object"]

/-- What is said about a builder that is asked by way of a text. -/
def message : String := "Replace this emptiness check with \"isEmpty()\"."

variable (unit : SourceUnit)

/-- Whether an expression makes a text of a builder. -/
def isBuilderText (expression : Option NodeId) : Query Bool := do
  match expression with
  | some node => toText.matchesNode unit.table unit.tree node
  | none => return false

/-- Whether an expression is the empty text. -/
def isEmptyText (tree : Tree) (expression : Option NodeId) : Bool :=
  match expression with
  | some node => tree.kind node == .literal && tree.text node == some "\"\""
  | none => false

/-- Whether a node compares a call with zero for equality. -/
def isZeroComparison (tree : Tree) (comparison call : NodeId) : Bool :=
  tree.kind comparison == .binary && tree.text comparison == some "==" &&
    tree.role call == .operand &&
    (tree.operands comparison).any fun operand =>
      operand != call && tree.kind operand == .literal && tree.text operand == some "0"

/-- The span from the end of one span to the end of another. -/
def spanBehind (first last : Span) : Span :=
  { last with
    startByte := first.endByte
    startLine := first.endLine
    startColumn := first.endColumn }

/-- What replaces everything behind the builder. -/
def emptinessCall : String := ".isEmpty()"

/-- The way to ask the builder directly: everything behind it, up to the end of the
call, is replaced. -/
def quickFix? (tree : Tree) (call : NodeId) : Option QuickFix := do
  let text ← tree.receiver call
  let builder ← tree.receiver text
  return {
    description := "Replace with \"isEmpty()\""
    edits :=
      [{ span := spanBehind (tree.span builder) (tree.span call), replacement := emptinessCall }] }

/-- A report that covers a node. -/
def reportAt (node : NodeId) (fix : Option QuickFix) : Report :=
  { message, span := unit.tree.span node, fix }

/-- Whether a call is one of a method on the text of a builder. -/
def isCallOnBuilderText (method : MethodMatcher) (call : NodeId) : Query Bool := do
  if ← method.matchesInvocation unit.table unit.tree call then
    isBuilderText unit (unit.tree.receiver call)
  else return false

/-- Whether a call compares the text of a builder with the empty text, in either
order. -/
def isTextComparison (call : NodeId) : Query Bool := do
  if !(← equalsMethod.matchesInvocation unit.table unit.tree call) then return false
  let receiver := unit.tree.receiver call
  let argument := (unit.tree.arguments call).head?
  if ← isBuilderText unit receiver then
    if isEmptyText unit.tree argument then return true
  if isEmptyText unit.tree receiver then isBuilderText unit argument else return false

/-- The report at a call, if there is one. -/
def reportsAt (call : NodeId) : Query (List Report) := do
  if ← isCallOnBuilderText unit isEmptyMethod call then
    return [reportAt unit call (quickFix? unit.tree call)]
  if ← isCallOnBuilderText unit lengthMethod call then
    match unit.tree.parent call with
    | some parent =>
        if isZeroComparison unit.tree parent call then return [reportAt unit parent none]
        else return []
    | none => return []
  if ← isTextComparison unit call then return [reportAt unit call none]
  else return []

/-- The detector of builders that are asked by way of a text. -/
def detector : Detector :=
  .ofQuery .builderIsEmpty [.methodInvocation] reportsAt

end JavaInspect.Check.BuilderEmptiness
