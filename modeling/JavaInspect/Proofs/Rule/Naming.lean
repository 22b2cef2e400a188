import JavaInspect.Configuration
import JavaInspect.Proofs.Filter.Coverage
import JavaInspect.Proofs.Text.Cutting
import JavaInspect.Rule.Catalogue

/-!
# Rules by their written names

A user can name a rule in the list of rules that are off, in an annotation or in a comment. The
parts of the analysis read such a name in different ways: a key is compared with the name with and
without the lead in front of it; for the list of rules that are off, the lead is taken off the key
as well; for exclusions it is taken off the written name only.

All parts read every name alike exactly if nothing can be taken off the key itself. Otherwise they
already disagree on the key, written as it is: the rule can be switched off, but none of its
findings can be excluded.
-/

namespace JavaInspect

variable {written : String} {key : RuleKey}

/-! ## Names and keys -/

/-- What is left of a written name is either behind the lead, or the name without blanks where
there is no lead. -/
theorem ruleName_eq_iff {name : String} : ruleName written = name ↔
    Text.trimmed written = repositoryLead ++ name ∨
      Text.trimmed written = name ∧ ∀ rest, name ≠ repositoryLead ++ rest := by
  rw [ruleName]
  cases lead : Text.afterLead? repositoryLead (Text.trimmed written) with
  | some rest =>
      have parts := Text.afterLead?_eq_some_iff.1 lead
      rw [parts, Option.getD_some]
      constructor
      · rintro rfl
        exact .inl rfl
      · rintro (same | ⟨same, noLead⟩)
        · exact String.append_right_inj _ |>.1 same
        · exact absurd same.symm (noLead rest)
  | none =>
      have noLead (rest : String) : Text.trimmed written ≠ repositoryLead ++ rest := by
        intro parts
        rw [Text.afterLead?_eq_some_iff.2 parts] at lead
        cases lead
      rw [Option.getD_none]
      constructor
      · rintro rfl
        exact .inr ⟨rfl, noLead⟩
      · rintro (same | ⟨same, -⟩)
        · exact absurd same (noLead name)
        · exact same

namespace RuleKey

/-- Nothing can be taken off the key of a rule. -/
def IsBare (key : RuleKey) : Prop := ruleName key.name = key.name

instance : Decidable key.IsBare := inferInstanceAs (Decidable (_ = _))

theorem isBare_of_mem_catalogue : ∀ key ∈ catalogue, key.IsBare := by decide +kernel

/-- A bare key has no lead. -/
theorem IsBare.noLead (bare : key.IsBare) (rest : String) : key.name ≠ repositoryLead ++ rest := by
  rcases ruleName_eq_iff.1 bare with longer | ⟨-, noLead⟩
  · -- A key that stands behind the lead would be longer than itself.
    have atMost := Text.length_trimmed_le key.name
    rw [longer, String.length_append] at atMost
    have positive : 0 < repositoryLead.length := by decide
    omega
  · exact noLead rest

theorem denotedBy_iff : key.denotedBy written = true ↔
    Text.trimmed written = key.name ∨ Text.trimmed written = repositoryLead ++ key.name := by
  simp only [denotedBy, Bool.or_eq_true, beq_iff_eq, Text.afterLead?_eq_some_iff]

/-- A bare key is denoted by the written names of which it is left. -/
theorem IsBare.denotedBy_iff (bare : key.IsBare) :
    key.denotedBy written = true ↔ ruleName written = key.name := by
  rw [RuleKey.denotedBy_iff, ruleName_eq_iff, or_comm, and_iff_left bare.noLead]

end RuleKey

/-! ## The parts of the analysis -/

namespace Configuration

variable {configuration : Configuration} {name : String}

/-- With one name in the list of rules that are off, a key is off if the same is left of both. -/
theorem isRuleEnabled_eq_false_iff (only : configuration.disabledRules = [written]) :
    configuration.isRuleEnabled name = false ↔ ruleName written = ruleName name := by
  rw [isRuleEnabled, only]
  simp

end Configuration

namespace Exclusions

variable {finding : Finding}

theorem excludes_excludeLine : (excludeLine {} written finding.line).excludes finding = true ↔
    ruleName written = finding.rule.name := by
  have oneCall : build [.line written finding.line] = excludeLine {} written finding.line := rfl
  rw [← oneCall, excludes_build]
  simp [ExclusionCall.Covers, ExclusionCall.CoversUnit, ExclusionCall.CoversLine]

theorem excludes_excludeUnit : (excludeUnit {} written).excludes finding = true ↔
    ruleName written = finding.rule.name := by
  have oneCall : build [.unit written] = excludeUnit {} written := rfl
  rw [← oneCall, excludes_build]
  simp [ExclusionCall.Covers, ExclusionCall.CoversUnit, ExclusionCall.CoversLine]

end Exclusions

/-! ## Agreement -/

namespace RuleKey

/-- All parts take a written name for the key, or none of them does. -/
structure AgreedOn (key : RuleKey) (written : String) : Prop where
  /-- The rule is off where the name is the only one of a rule that is off. -/
  disabled : ∀ configuration : Configuration, configuration.disabledRules = [written] →
    (configuration.isRuleEnabled key.name = false ↔ key.denotedBy written = true)
  /-- A finding goes when the name is excluded from its line. -/
  line : ∀ finding : Finding, finding.rule = key →
    ((Exclusions.excludeLine {} written finding.line).excludes finding = true ↔
      key.denotedBy written = true)
  /-- A finding goes when the name is excluded from the whole unit. -/
  unit : ∀ finding : Finding, finding.rule = key →
    ((Exclusions.excludeUnit {} written).excludes finding = true ↔ key.denotedBy written = true)

/-- Findings of the rule go when a written name is excluded from their line or from the unit. -/
def SilencedBy (key : RuleKey) (written : String) : Prop :=
  ∀ finding : Finding, finding.rule = key →
    (Exclusions.excludeLine {} written finding.line).excludes finding = true ∧
      (Exclusions.excludeUnit {} written).excludes finding = true

theorem silencedBy_iff : key.SilencedBy written ↔ ruleName written = key.name := by
  simp only [SilencedBy, Exclusions.excludes_excludeLine, Exclusions.excludes_excludeUnit, and_self]
  constructor
  · intro silenced
    exact silenced { rule := key, message := "", span := {} } rfl
  · rintro same finding rfl
    exact same

theorem IsBare.agreedOn (bare : key.IsBare) (written : String) : key.AgreedOn written where
  disabled configuration only := by
    rw [Configuration.isRuleEnabled_eq_false_iff only, bare.denotedBy_iff, bare]
  line finding isRule := by
    rw [Exclusions.excludes_excludeLine, bare.denotedBy_iff, isRule]
  unit finding isRule := by
    rw [Exclusions.excludes_excludeUnit, bare.denotedBy_iff, isRule]

/-- The list of rules that are off takes every key for itself, so the other parts have to. -/
theorem AgreedOn.isBare (agreed : key.AgreedOn key.name) : key.IsBare := by
  have off : Configuration.isRuleEnabled { disabledRules := [key.name] } key.name = false :=
    (Configuration.isRuleEnabled_eq_false_iff rfl).2 rfl
  have denoted := (agreed.disabled { disabledRules := [key.name] } rfl).1 off
  have excluded := (agreed.unit { rule := key, message := "", span := {} } rfl).2 denoted
  exact Exclusions.excludes_excludeUnit.1 excluded

/-- The rules of the library are read alike by all parts. -/
theorem agreedOn_of_mem_catalogue (listed : key ∈ catalogue) (written : String) :
    key.AgreedOn written :=
  (isBare_of_mem_catalogue key listed).agreedOn written

/-- For every key of a rule: all parts read every written name alike exactly if the key is bare.
That is also exactly when the rule is silenced by its own key. -/
theorem names_read_alike (key : RuleKey) :
    ((∀ written, key.AgreedOn written) ↔ key.IsBare) ∧ (key.SilencedBy key.name ↔ key.IsBare) :=
  ⟨⟨fun agreed => (agreed key.name).isBare, IsBare.agreedOn⟩, silencedBy_iff⟩

/-- A key that begins like a lead is denoted by itself and can be switched off, but a finding of
the rule is excluded neither from its line nor from the unit. -/
theorem not_silenced_leadingKey :
    let key : RuleKey := ⟨"java:S1"⟩
    let finding : Finding := { rule := key, message := "", span := .ofLines 3 3 }
    key.denotedBy "java:S1" = true ∧
      Configuration.isRuleEnabled { disabledRules := ["java:S1"] } key.name = false ∧
      (Exclusions.excludeLine {} "java:S1" 3).excludes finding = false ∧
      (Exclusions.excludeUnit {} "java:S1").excludes finding = false ∧
      ¬ key.AgreedOn "java:S1" ∧ ¬ key.SilencedBy "java:S1" := by
  have notBare : ¬ (⟨"java:S1"⟩ : RuleKey).IsBare := by decide +kernel
  refine ⟨by decide +kernel, by decide +kernel, by decide +kernel, by decide +kernel, ?_, ?_⟩
  · exact fun agreed => notBare agreed.isBare
  · exact fun silenced => notBare (silencedBy_iff.1 silenced)

end RuleKey

end JavaInspect
