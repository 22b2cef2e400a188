import JavaInspect.Text.Blank
import JavaInspect.Text.Lines

/-!
# Directives in comments

A comment can hold a directive that silences a rule:

* `// semacheck:ignore S107 - reason` on the line of the comment or, when nothing
  stands before the comment, on the next line;
* `// semacheck:ignore-next-line S107 - reason` on the next line;
* `// semacheck:ignore-file S107 - reason` in the whole file. It is honoured in the
  leading comments of the file and in its first ten lines.

A comment between `/*` and `*/` does as well. A line has at most one directive, and
comments to the end of the line are looked for first.
-/

namespace JavaInspect

/-- What a directive says. -/
inductive DirectiveWord where
  | ignore
  | ignoreFile
  | ignoreNextLine
deriving DecidableEq, Repr, Inhabited

namespace DirectiveWord

/-- Every word. -/
def all : List DirectiveWord := [.ignore, .ignoreFile, .ignoreNextLine]

/-- How a word is written. -/
def written : DirectiveWord → String
  | .ignore => "ignore"
  | .ignoreFile => "ignore-file"
  | .ignoreNextLine => "ignore-next-line"

end DirectiveWord

/-- The forms of a comment: to the end of the line, or between delimiters. -/
inductive CommentForm where
  | line
  | block
deriving DecidableEq, Repr, Inhabited

/-- How a comment begins. -/
def CommentForm.opening : CommentForm → List Char
  | .line => ['/', '/']
  | .block => ['/', '*']

/-- Where a directive applies: to the line of its comment, to the line after it or to
the whole file. -/
inductive DirectiveScope where
  | line
  | nextLine
  | file
deriving DecidableEq, Repr, Inhabited

/-- A directive that is honoured. -/
structure Directive where
  /-- The rule as written. -/
  rule : String
  reason : String
  /-- The line of the comment. -/
  line : Nat
  scope : DirectiveScope
deriving DecidableEq, Repr, Inhabited

/-- A directive as it stands in a line. -/
structure DirectiveText where
  /-- What stands before the comment. -/
  before : List Char
  word : DirectiveWord
  /-- The rule as written. -/
  rule : List Char
  reason : List Char
deriving DecidableEq, Repr, Inhabited

namespace Directive

/-- What the directives of this library begin with. -/
def marker : String := "semacheck:"

/-- A word followed by blanks, and what comes then. -/
def afterWord? (text : List Char) (word : DirectiveWord) :
    Option (DirectiveWord × List Char) :=
  match word.written.toList.isPrefixOf? text with
  | some (c :: rest) => if Text.isBlank c then some (word, Text.trimStart rest) else none
  | _ => none

/-- The reason behind a rule in a comment to the end of the line, where a dash begins
it. -/
def lineReason (text : List Char) : List Char :=
  match Text.trimStart text with
  | '-' :: rest => Text.trim rest
  | _ => []

/-- In a comment to the end of the line the rule goes as far as the next blank. -/
def lineRule? (text : List Char) : Option (List Char × List Char) :=
  let rule := text.takeWhile fun c => !Text.isBlank c
  if rule.isEmpty then none else some (rule, lineReason (text.drop rule.length))

/-- What stands before the place where a comment is closed. -/
def beforeClosing? : List Char → Option (List Char)
  | '*' :: '/' :: _ => some []
  | c :: rest => (beforeClosing? rest).map (c :: ·)
  | [] => none

/-- The reason behind a rule in a comment between delimiters. The rule ends here if,
blanks aside, the comment is closed or a dash begins a reason. -/
def blockReason? (text : List Char) : Option (List Char) :=
  match Text.trimStart text with
  | '*' :: '/' :: _ => some []
  | '-' :: rest => (beforeClosing? rest).map Text.trim
  | _ => none

/-- In a comment between delimiters the rule goes as far as the first place where
the comment is closed or a reason begins. -/
def blockRule? : List Char → Option (List Char × List Char)
  | [] => none
  | c :: rest =>
      if Text.isBlank c then none
      else
        match blockReason? rest with
        | some reason => some ([c], reason)
        | none => (blockRule? rest).map fun (rule, reason) => (c :: rule, reason)

/-- The rule and the reason behind the word of a directive. -/
def rule? : CommentForm → List Char → Option (List Char × List Char)
  | .line => lineRule?
  | .block => blockRule?

/-- The directive in a comment with which a text begins. -/
def atStart? (form : CommentForm) (text : List Char) : Option DirectiveText := do
  let inside ← form.opening.isPrefixOf? text
  let marked ← marker.toList.isPrefixOf? (Text.trimStart inside)
  let (word, rest) ← DirectiveWord.all.findSome? (afterWord? marked)
  let (rule, reason) ← rule? form rest
  return { before := [], word, rule, reason }

/-- The directive in the first comment of the given form that holds one. -/
def findIn? (form : CommentForm) : List Char → Option DirectiveText
  | [] => none
  | c :: rest =>
      match atStart? form (c :: rest) with
      | some found => some found
      | none =>
          (findIn? form rest).map fun found => { found with before := c :: found.before }

/-- The directive of a line. -/
def inLine? (line : List Char) : Option DirectiveText :=
  (findIn? .line line).or (findIn? .block line)

/-- Whether a line can belong to the leading comments of a file. -/
def isCommentOrBlank (line : List Char) : Bool :=
  match Text.trim line with
  | [] | '*' :: _ | '/' :: '/' :: _ | '/' :: '*' :: _ => true
  | _ => false

/-- The number of lines in which directives for the whole file are honoured in any
case. -/
def headerLines : Nat := 10

/-- Where the directive of a line applies, if it is honoured. -/
def scopeOf? (inHeader : Bool) (number : Nat) (text : DirectiveText) : Option DirectiveScope :=
  match text.word with
  | .ignoreFile => if inHeader || number ≤ headerLines then some .file else none
  | .ignoreNextLine => some .nextLine
  | .ignore => if (Text.trim text.before).isEmpty then some .nextLine else some .line

/-- The directive of a line that is honoured. -/
def ofLine? (inHeader : Bool) (number : Nat) (line : List Char) : Option Directive := do
  let text ← inLine? line
  let scope ← scopeOf? inHeader number text
  return {
    rule := String.ofList text.rule
    reason := String.ofList text.reason
    line := number
    scope }

/-- The directives of lines that follow one another from a line number on. -/
def ofLines (inHeader : Bool) (number : Nat) : List (List Char) → List Directive
  | [] => []
  | line :: rest =>
      let inHeader := inHeader && isCommentOrBlank line
      (ofLine? inHeader number line).toList ++ ofLines inHeader (number + 1) rest

/-- The directives of a source text. -/
def ofSource (source : String) : List Directive :=
  ofLines true 1 (Text.lines source.toList)

/-- The line that a directive covers, unless it covers the whole file. -/
def coveredLine? (directive : Directive) : Option Nat :=
  match directive.scope with
  | .line => some directive.line
  | .nextLine => some (directive.line + 1)
  | .file => none

end Directive

end JavaInspect
