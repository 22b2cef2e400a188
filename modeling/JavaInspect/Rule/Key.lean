import JavaInspect.Text.Affix
import JavaInspect.Text.Blank

/-!
# Rule keys

A rule has a key such as `S107`. Where a user writes the name of a rule, blanks
around it do not count, and the name of the repository may stand before the
key.
-/

namespace JavaInspect

/-- What may stand before the key of a rule. -/
def repositoryLead : String := "java:"

/-- The name of a rule as written, without blanks around it and without the name
of the repository. -/
def ruleName (written : String) : String :=
  let name := Text.trimmed written
  (Text.afterLead? repositoryLead name).getD name

/-- The identity of a rule. -/
structure RuleKey where
  name : String
deriving DecidableEq, Repr, Inhabited

namespace RuleKey

/-- Whether a written name denotes the rule: its bare key, or its key behind the
name of the repository. -/
def denotedBy (key : RuleKey) (written : String) : Bool :=
  let name := Text.trimmed written
  name == key.name || Text.afterLead? repositoryLead name == some key.name

end RuleKey

end JavaInspect
