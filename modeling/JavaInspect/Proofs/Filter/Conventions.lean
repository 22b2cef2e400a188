import JavaInspect.Filter.Framework
import JavaInspect.Proofs.Filter.Scans
import JavaInspect.Proofs.Rule.Naming
import JavaInspect.Proofs.Semantics.Annotations
import JavaInspect.Proofs.Semantics.Consultations
import JavaInspect.Proofs.Semantics.SubtypeOrder
import JavaInspect.Proofs.Tree.Building

/-!
# Which findings the conventions of a framework explain

A node of the tree excuses findings of a rule on the lines of a span. A finding is excluded exactly
if some node excuses it. Whether a node excuses a finding is read off the tree and the table, in
one of two views: annotations of known types are those of a symbol, and where a fallback is
provided, annotations of unknown types are those of a node.

Names of methods are the one case for which supertypes are followed. Where these run in a circle,
the answer depends on what was asked before; all other cases are settled without this premise.
-/

namespace JavaInspect

open Cache Query

namespace FrameworkFilter

section Definitions

/-- A name has a part on either side of a low line. -/
def IsParted (name : String) : Prop :=
  ∃ before after, name.toList = before ++ '_' :: after ∧ before ≠ [] ∧ after ≠ []

variable (settings : FrameworkSettings) (unit : SourceUnit) (node : NodeId)

/-- The framework fills in a variable. -/
def IsAutowired : Prop := unit.IsAnnotated node autowiredName "Autowired"

/-- The class of a constructor is annotated as one that the framework puts together. -/
def IsAssembled : Prop :=
  ∃ declared owner, unit.tree.binding node = some declared ∧
    (unit.table.entry declared).owner = some owner ∧
    ∃ name ∈ classExceptions ++ settings.classAnnotations, unit.table.Carries owner name

/-- A method is annotated as one that the framework calls. -/
def IsHandler : Prop :=
  ∃ declared, unit.tree.binding node = some declared ∧
    ∃ name ∈ methodExceptions ++ settings.methodAnnotations, unit.table.Carries declared name

/-- The type that declares a method is below that of all query interfaces. -/
def IsInRepository : Prop :=
  ∃ declared owner type, unit.tree.binding node = some declared ∧
    (unit.table.entry declared).owner = some owner ∧
    unit.table.declaredTypeOf owner = some type ∧ unit.table.SubtypeOfName type repositoryName

/-- The name of a method is a query: the method is in a repository, and its name has a part on
either side of a low line but does not begin with one. -/
structure IsQuery : Prop where
  parted : ∃ name, unit.tree.name node = some name ∧ IsParted name ∧ name.toList.head? ≠ some '_'
  inRepository : IsInRepository unit node

/-- A node excuses the findings of a rule in a span. -/
inductive Excuses : RuleKey → Span → Prop where
  | transactions (isType : (unit.tree.kind node).isTypeDeclaration)
      (transactional : unit.IsAnnotated node transactionalName "Transactional") :
      Excuses .methodOnlyCallsSuper (unit.tree.span node)
  | autowiredField (isType : (unit.tree.kind node).isTypeDeclaration) (field : NodeId)
      (member : field ∈ unit.tree.members node) (isVariable : unit.tree.kind field = .variable)
      (autowired : IsAutowired unit field) :
      Excuses .atLeastOneConstructor (unit.tree.nameSpan node)
  | autowired (isVariable : unit.tree.kind node = .variable) (autowired : IsAutowired unit node) :
      Excuses .servletInstanceField (unit.tree.span node)
  | constructor (isConstructor : unit.tree.kind node = .constructor)
      (assembled : IsAssembled settings unit node) :
      Excuses .tooManyParameters (unit.tree.nameSpan node)
  | handler (isMethod : unit.tree.kind node = .method) (handler : IsHandler settings unit node) :
      Excuses .tooManyParameters (unit.tree.nameSpan node)
  | setter (isMethod : unit.tree.kind node = .method) (marked : unit.IsMarked node autowiredName) :
      Excuses .optionalAsParameter (headerSpan unit.tree node)
  | query (isMethod : unit.tree.kind node = .method) (query : IsQuery unit node) :
      Excuses .badMethodName (unit.tree.nameSpan node)

/-- A node excuses the findings of a rule on a line. -/
def ExcusesLine (name : String) (line : Nat) : Prop :=
  ∃ rule span, rule.name = name ∧ Excuses settings unit node rule span ∧
    span.startLine ≤ line ∧ line ≤ span.endLine

/-- The name of a rule for which supertypes are not followed, or do not run in a circle. -/
def IsDecided (table : Table) (name : String) : Prop :=
  name = RuleKey.badMethodName.name → Acyclic table.Above

end Definitions

/-! ## Names -/

/-- Only the first low line is looked at. It has a part on either side if some low line has, unless
the name begins with one. -/
theorem hasInnerSeparator_iff {name : String} :
    hasInnerSeparator name = true ↔ IsParted name ∧ name.toList.head? ≠ some '_' := by
  rw [hasInnerSeparator, Bool.and_eq_true, bne_iff_ne, decide_eq_true_iff, and_comm]
  refine and_congr_left fun notFirst => ?_
  constructor
  · intro behind
    have nonempty : name.toList.dropWhile (· != '_') ≠ [] :=
      List.ne_nil_of_length_pos (Nat.lt_of_succ_lt behind)
    have isSeparator := List.head_dropWhile_not _ nonempty
    have parts := List.takeWhile_append_dropWhile (p := (· != '_')) (l := name.toList)
    obtain ⟨separator, after, dropped⟩ := List.exists_cons_of_ne_nil nonempty
    simp only [dropped, List.head_cons, bne_eq_false_iff_eq] at isSeparator
    rw [dropped, isSeparator] at parts
    rw [dropped] at behind
    refine ⟨_, after, parts.symm, ?_, ?_⟩
    · intro nothingBefore
      rw [nothingBefore] at parts
      simp [← parts] at notFirst
    · rintro rfl
      simp at behind
  · rintro ⟨before, after, parts, nonempty, nonemptyAfter⟩
    have behind := List.length_pos_iff.2 nonemptyAfter
    rw [parts, List.dropWhile_append]
    split
    · rw [List.dropWhile_cons_of_neg (by simp), List.length_cons]
      omega
    · rw [List.length_append, List.length_cons]
      omega

/-! ## Keys -/

theorem isBare_of_inScope {rule : RuleKey} (inScope : scope.contains rule = true) :
    rule.IsBare := by
  apply RuleKey.isBare_of_mem_catalogue
  simp only [scope, RuleScope.contains, List.contains_iff_mem, List.mem_cons] at inScope
  simp only [RuleKey.catalogue, List.mem_cons]
  grind

/-! ## Reasons by the kind of the node -/

section Kinds

variable {settings : FrameworkSettings} {unit : SourceUnit} {node : NodeId} {name : String}
  {line : Nat}

theorem excusesLine_iff_of_type (isType : (unit.tree.kind node).isTypeDeclaration) :
    ExcusesLine settings unit node name line ↔
      (RuleKey.methodOnlyCallsSuper.name = name ∧
        unit.IsAnnotated node transactionalName "Transactional" ∧
        (unit.tree.span node).startLine ≤ line ∧ line ≤ (unit.tree.span node).endLine) ∨
      RuleKey.atLeastOneConstructor.name = name ∧
        (∃ field ∈ (unit.tree.members node).filter (unit.tree.kind · == .variable),
          IsAutowired unit field) ∧
        (unit.tree.nameSpan node).startLine ≤ line ∧
          line ≤ (unit.tree.nameSpan node).endLine := by
  simp only [List.mem_filter, beq_iff_eq]
  constructor
  · rintro ⟨rule, span, rfl, excuses, inside⟩
    cases excuses with
    | transactions _ transactional => exact .inl ⟨rfl, transactional, inside⟩
    | autowiredField _ field member isVariable autowired =>
        exact .inr ⟨rfl, ⟨field, ⟨member, isVariable⟩, autowired⟩, inside⟩
    | autowired isKind | constructor isKind | handler isKind | setter isKind | query isKind =>
        rw [isKind] at isType
        cases isType
  · rintro (⟨rfl, transactional, inside⟩ |
      ⟨rfl, ⟨field, ⟨member, isVariable⟩, autowired⟩, inside⟩)
    · exact ⟨_, _, rfl, .transactions isType transactional, inside⟩
    · exact ⟨_, _, rfl, .autowiredField isType field member isVariable autowired, inside⟩

theorem excusesLine_iff_of_variable (isVariable : unit.tree.kind node = .variable) :
    ExcusesLine settings unit node name line ↔
      RuleKey.servletInstanceField.name = name ∧ IsAutowired unit node ∧
        (unit.tree.span node).startLine ≤ line ∧ line ≤ (unit.tree.span node).endLine := by
  constructor
  · rintro ⟨rule, span, rfl, excuses, inside⟩
    cases excuses with
    | autowired _ autowired => exact ⟨rfl, autowired, inside⟩
    | transactions isKind | autowiredField isKind | constructor isKind | handler isKind
    | setter isKind | query isKind =>
        rw [isVariable] at isKind
        cases isKind
  · rintro ⟨rfl, autowired, inside⟩
    exact ⟨_, _, rfl, .autowired isVariable autowired, inside⟩

theorem excusesLine_iff_of_constructor (isConstructor : unit.tree.kind node = .constructor) :
    ExcusesLine settings unit node name line ↔
      RuleKey.tooManyParameters.name = name ∧ IsAssembled settings unit node ∧
        (unit.tree.nameSpan node).startLine ≤ line ∧ line ≤ (unit.tree.nameSpan node).endLine := by
  constructor
  · rintro ⟨rule, span, rfl, excuses, inside⟩
    cases excuses with
    | constructor _ assembled => exact ⟨rfl, assembled, inside⟩
    | transactions isKind | autowiredField isKind | autowired isKind | handler isKind
    | setter isKind | query isKind =>
        rw [isConstructor] at isKind
        cases isKind
  · rintro ⟨rfl, assembled, inside⟩
    exact ⟨_, _, rfl, .constructor isConstructor assembled, inside⟩

theorem excusesLine_iff_of_method (isMethod : unit.tree.kind node = .method) :
    ExcusesLine settings unit node name line ↔
      ((RuleKey.tooManyParameters.name = name ∧ IsHandler settings unit node ∧
          (unit.tree.nameSpan node).startLine ≤ line ∧ line ≤ (unit.tree.nameSpan node).endLine) ∨
        RuleKey.badMethodName.name = name ∧ IsQuery unit node ∧
          (unit.tree.nameSpan node).startLine ≤ line ∧ line ≤ (unit.tree.nameSpan node).endLine) ∨
      RuleKey.optionalAsParameter.name = name ∧ unit.IsMarked node autowiredName ∧
        (headerSpan unit.tree node).startLine ≤ line ∧
          line ≤ (headerSpan unit.tree node).endLine := by
  constructor
  · rintro ⟨rule, span, rfl, excuses, inside⟩
    cases excuses with
    | handler _ handler => exact .inl (.inl ⟨rfl, handler, inside⟩)
    | query _ query => exact .inl (.inr ⟨rfl, query, inside⟩)
    | setter _ marked => exact .inr ⟨rfl, marked, inside⟩
    | transactions isKind | autowiredField isKind | autowired isKind | constructor isKind =>
        rw [isMethod] at isKind
        cases isKind
  · rintro ((⟨rfl, handler, inside⟩ | ⟨rfl, query, inside⟩) | ⟨rfl, marked, inside⟩)
    · exact ⟨_, _, rfl, .handler isMethod handler, inside⟩
    · exact ⟨_, _, rfl, .query isMethod query, inside⟩
    · exact ⟨_, _, rfl, .setter isMethod marked, inside⟩

/-- Only these kinds of nodes give reasons. -/
theorem Excuses.isReason {rule : RuleKey} {span : Span}
    (excuses : Excuses settings unit node rule span) :
    (unit.tree.kind node).isTypeDeclaration ∨ unit.tree.kind node = .variable ∨
      unit.tree.kind node = .constructor ∨ unit.tree.kind node = .method := by
  cases excuses with
  | transactions isType | autowiredField isType => exact .inl isType
  | autowired isVariable => exact .inr (.inl isVariable)
  | constructor isConstructor => exact .inr (.inr (.inl isConstructor))
  | handler isMethod | setter isMethod | query isMethod => exact .inr (.inr (.inr isMethod))

end Kinds

/-! ## One node -/

section Node

variable {settings : FrameworkSettings} {unit : SourceUnit} {node : NodeId} {declared : BindingId}
  {before : Cache} {blame : SemanticFault → Prop} {rules : String → Prop}
  {exclusions : Exclusions} {covered : String → Nat → Prop}

/-- What is asked of the owner of a declaration is decided by what is asked of a symbol. -/
theorem yields_ofOwner {table : Table} {ask : SymbolId → Query Bool} {holds : BindingId → Prop}
    {condition : Prop} (valid : before.Valid table)
    (asked : ∀ owner symbol middle, Leads table blame before middle →
      middle.ShowsSymbol symbol owner →
      Yields table blame (ask symbol) middle fun answer _ =>
        condition → (answer = true ↔ holds owner)) :
    Yields table blame (do
        let symbol ← symbolOf table declared
        match ← owner table symbol with
        | none => return false
        | some owner => ask owner) before fun answer _ =>
      condition →
        (answer = true ↔ ∃ owner, (table.entry declared).owner = some owner ∧ holds owner) := by
  apply (yields_symbolOf valid).bind
  intro symbol middle leads isShown
  apply (yields_owner leads.valid isShown).bind
  intro answer after leadsOn ownerShown
  cases isOwner : (table.entry declared).owner with
  | none =>
      rw [isOwner] at ownerShown
      cases ownerShown
      exact .pure leadsOn.valid (by simp)
  | some owner =>
      rw [isOwner] at ownerShown
      cases ownerShown with | some ownerShown =>
      apply (asked owner _ after (leads.trans leadsOn) ownerShown).imp
      intro answer _ _ decided holds
      rw [decided holds]
      simp

variable (arraysEnd : unit.table.ArraysEnd) (valid : before.Valid unit.table)
include arraysEnd valid

theorem decides_isAutowired :
    Decides unit.table blame (isAutowired unit node) before (IsAutowired unit node) :=
  decides_isAnnotated arraysEnd valid

theorem yields_excludeForType (covers : exclusions.CoversExactly rules covered)
    (isType : (unit.tree.kind node).isTypeDeclaration) :
    Yields unit.table blame (excludeForType unit exclusions node) before fun more _ =>
      more.CoversExactly rules fun name line =>
        covered name line ∨ ExcusesLine settings unit node name line := by
  rw [excludeForType]
  apply (decides_isAnnotated arraysEnd valid).bind
  intro transactional middle leads isTransactional
  have asked : ∀ field ∈ (unit.tree.members node).filter (unit.tree.kind · == .variable),
      ∀ later, Leads unit.table blame middle later →
        Decides unit.table blame (isAutowired unit field) later (IsAutowired unit field) :=
    fun field _ later leadsOn => decides_isAutowired arraysEnd leadsOn.valid
  apply (Decides.anyM leads.valid asked).bind
  intro autowired after leadsOn isAutowired
  apply Yields.pure leadsOn.valid
  apply ((covers.excludeLinesIf (isBare_of_inScope rfl)
    fun _ => isTransactional).excludeLinesIf (isBare_of_inScope rfl) fun _ => isAutowired).congr
  intro name _ line
  rw [excusesLine_iff_of_type isType, or_assoc]

theorem yields_excludeForVariable (covers : exclusions.CoversExactly rules covered)
    (isVariable : unit.tree.kind node = .variable) :
    Yields unit.table blame (excludeForVariable unit exclusions node) before fun more _ =>
      more.CoversExactly rules fun name line =>
        covered name line ∨ ExcusesLine settings unit node name line := by
  rw [excludeForVariable]
  apply (decides_isAutowired arraysEnd valid).bind
  intro autowired after leads isAutowired
  apply Yields.pure leads.valid
  apply (covers.excludeLinesIf (isBare_of_inScope rfl) fun _ => isAutowired).congr
  intro name _ line
  rw [excusesLine_iff_of_variable isVariable]

theorem decides_ownerIsExcepted :
    Decides unit.table blame (ownerIsExcepted settings unit declared) before
      (∃ owner, (unit.table.entry declared).owner = some owner ∧
        ∃ name ∈ classExceptions ++ settings.classAnnotations, unit.table.Carries owner name) := by
  have asked : ∀ owner symbol middle, Leads unit.table blame before middle →
      middle.ShowsSymbol symbol owner →
      Yields unit.table blame (do
          let annotations ← metadata unit.table symbol
          let names := classExceptions ++ settings.classAnnotations
          return Metadata.isAnnotatedWithAny (← get) annotations names) middle fun answer _ =>
        True → (answer = true ↔ ∃ name ∈ classExceptions ++ settings.classAnnotations,
          unit.table.Carries owner name) := by
    intro owner symbol middle leads isShown
    apply (yields_metadata arraysEnd leads.valid isShown).bind
    intro annotations after leadsOn areShown
    apply Yields.get
    apply Yields.pure leadsOn.valid
    exact fun _ => Metadata.isAnnotatedWithAny_iff leadsOn.valid areShown
  apply (yields_ofOwner valid asked).imp
  exact fun _ _ _ decided => decided trivial

theorem yields_excludeForConstructor (covers : exclusions.CoversExactly rules covered)
    (isConstructor : unit.tree.kind node = .constructor) :
    Yields unit.table blame (excludeForConstructor settings unit exclusions node) before
      fun more _ => more.CoversExactly rules fun name line =>
        covered name line ∨ ExcusesLine settings unit node name line := by
  rw [excludeForConstructor]
  cases isBinding : unit.tree.binding node with
  | none =>
      apply Yields.pure valid
      apply covers.congr
      intro name _ line
      simp [excusesLine_iff_of_constructor isConstructor, IsAssembled, isBinding]
  | some declared =>
      apply (decides_ownerIsExcepted arraysEnd valid).bind
      intro excepted after leads isExcepted
      apply Yields.pure leads.valid
      apply (covers.excludeLinesIf (isBare_of_inScope rfl) fun _ => isExcepted).congr
      intro name _ line
      simp [excusesLine_iff_of_constructor isConstructor, IsAssembled, isBinding]

theorem yields_isQueryMethod (linked : unit.table.WellLinked) (idle : Idle before)
    (isBinding : unit.tree.binding node = some declared) :
    Yields unit.table (fun _ => True) (isQueryMethod unit node declared) before fun answer _ =>
      Acyclic unit.table.Above → (answer = true ↔ IsQuery unit node) := by
  rw [isQueryMethod]
  cases separated : (unit.tree.name node).any hasInnerSeparator with
  | false =>
      apply Yields.pure valid
      intro _
      refine iff_of_false Bool.false_ne_true fun query => ?_
      obtain ⟨name, isName, inside⟩ := query.parted
      simp [isName, hasInnerSeparator_iff.2 inside] at separated
  | true =>
      rw [Option.any_eq_true] at separated
      obtain ⟨name, isName, inside⟩ := separated
      have onlyBelow : IsQuery unit node ↔ IsInRepository unit node :=
        ⟨(·.inRepository), fun below => ⟨⟨name, isName, hasInnerSeparator_iff.1 inside⟩, below⟩⟩
      have asked : ∀ owner symbol middle, Leads unit.table (fun _ => True) before middle →
          middle.ShowsSymbol symbol owner →
          Yields unit.table (fun _ => True) (do
              let type ← declaredType unit.table symbol
              isSubtypeOf unit.table type repositoryName) middle fun answer _ =>
            Acyclic unit.table.Above → (answer = true ↔ ∃ type,
              unit.table.declaredTypeOf owner = some type ∧
              unit.table.SubtypeOfName type repositoryName) := by
        intro owner symbol middle leads isShown
        apply (yields_declaredType arraysEnd leads.valid isShown).bind
        intro type after leadsOn typeShown
        have stillIdle : Idle after := (idle.later leads.toGrows).later leadsOn.toGrows
        apply ((yields_isSubtypeOf arraysEnd leadsOn.valid stillIdle typeShown).blameMore
          fun _ _ => trivial).imp
        intro answer _ _ answered acyclic
        have grounded := Request.grounded_of_acyclic_above acyclic
        rw [answered fun binding _ => grounded binding,
          Table.isBelowName_declaredTypeOf_iff linked grounded]
      apply (yields_ofOwner valid asked).imp
      intro answer _ _ decided acyclic
      rw [decided acyclic, onlyBelow, IsInRepository]
      simp [isBinding]

theorem yields_excludeForMethod (linked : unit.table.WellLinked) (idle : Idle before)
    (covers : exclusions.CoversExactly (IsDecided unit.table) covered)
    (isMethod : unit.tree.kind node = .method) :
    Yields unit.table (fun _ => True) (excludeForMethod settings unit exclusions node) before
      fun more _ => more.CoversExactly (IsDecided unit.table) fun name line =>
        covered name line ∨ ExcusesLine settings unit node name line := by
  rw [excludeForMethod]
  cases isBinding : unit.tree.binding node with
  | none =>
      have noQuery : ¬ IsQuery unit node := by
        intro query
        obtain ⟨declared, _, _, isDeclared, -⟩ := query.inRepository
        simp [isBinding] at isDeclared
      apply Yields.pure valid
      apply covers.congr
      intro name _ line
      simp [excusesLine_iff_of_method isMethod, IsHandler, SourceUnit.IsMarked, isBinding, noQuery]
  | some declared =>
      apply (yields_symbolOf valid).bind
      intro symbol middle leads isShown
      apply (yields_metadata arraysEnd leads.valid isShown).bind
      intro annotations later leadsOn areShown
      have stillIdle : Idle later := (idle.later leads.toGrows).later leadsOn.toGrows
      apply (yields_isQueryMethod arraysEnd leadsOn.valid linked stillIdle isBinding).bind
      intro query after leadsFurther isQuery
      apply Yields.get
      apply Yields.pure leadsFurther.valid
      -- The annotations were read before the supertypes were followed.
      have stillShown := areShown.imp fun _ _ => leadsFurther.toKeeps.showsAnnotation
      have isHandler : Metadata.isAnnotatedWithAny after annotations
          (methodExceptions ++ settings.methodAnnotations) = true ↔
            IsHandler settings unit node := by
        rw [Metadata.isAnnotatedWithAny_iff leadsFurther.valid stillShown]
        simp [IsHandler, isBinding]
      have isMarked : Metadata.isAnnotatedWith after annotations autowiredName = true ↔
          unit.IsMarked node autowiredName := by
        rw [Metadata.isAnnotatedWith_iff leadsFurther.valid stillShown]
        simp [SourceUnit.IsMarked, isBinding]
      apply (((covers.excludeLinesIf (isBare_of_inScope rfl)
        fun _ => isHandler).excludeLinesIf (isBare_of_inScope rfl)
        fun acyclic => isQuery (acyclic rfl)).excludeLinesIf (isBare_of_inScope rfl)
        fun _ => isMarked).congr
      intro name _ line
      rw [excusesLine_iff_of_method isMethod, or_assoc, or_assoc, or_assoc]

theorem yields_excludeFor (linked : unit.table.WellLinked) (idle : Idle before)
    (covers : exclusions.CoversExactly (IsDecided unit.table) covered) :
    Yields unit.table (fun _ => True) (excludeFor settings unit exclusions node) before
      fun more _ => more.CoversExactly (IsDecided unit.table) fun name line =>
        covered name line ∨ ExcusesLine settings unit node name line := by
  rw [excludeFor]
  cases isKind : unit.tree.kind node with
  | «class» | interface | enum | record | annotationType =>
      exact yields_excludeForType arraysEnd valid covers (by rw [isKind]; rfl)
  | «variable» => exact yields_excludeForVariable arraysEnd valid covers isKind
  | constructor => exact yields_excludeForConstructor arraysEnd valid covers isKind
  | method => exact yields_excludeForMethod arraysEnd valid linked idle covers isKind
  | _ =>
      apply Yields.pure valid
      apply covers.addNothing
      rintro _ _ ⟨rule, span, -, excuses, -⟩
      have isReason := excuses.isReason
      simp [isKind, NodeKind.isTypeDeclaration] at isReason

end Node

/-! ## All nodes -/

theorem Excuses.inScope {settings : FrameworkSettings} {unit : SourceUnit} {node : NodeId}
    {rule : RuleKey} {span : Span} (excuses : Excuses settings unit node rule span) :
    scope.contains rule = true := by
  cases excuses <;> rfl

variable (settings : FrameworkSettings) {unit : SourceUnit} {cache : Cache}

/-- A finding is excluded if a node excuses it, where supertypes do not run in a circle or are not
followed. -/
theorem excludes_scan_iff (built : unit.table.Built) (requested : cache.Requested unit.table)
    {finding : Finding} (decided : IsDecided unit.table finding.rule.name) :
    (scan settings unit cache).1.excludes finding = true ↔
      ∃ node ∈ unit.tree.preorder, ∃ span, Excuses settings unit node finding.rule span ∧
        span.startLine ≤ finding.line ∧ finding.line ≤ span.endLine := by
  have linked := built.wellLinked
  have arraysEnd := linked.arraysEnd
  have scanned : Yields unit.table (fun _ => True) (scan settings unit) cache fun exclusions _ =>
      exclusions.CoversExactly (IsDecided unit.table) fun name line =>
        ∃ node ∈ unit.tree.preorder, ExcusesLine settings unit node name line :=
    yields_scan (requested.valid arraysEnd) fun node _ middle leads _ _ covers =>
      yields_excludeFor arraysEnd leads.valid linked
        ((requested.idle arraysEnd).later leads.toGrows) covers
  rw [scanned.2.excludes_iff decided]
  refine exists_congr fun node => and_congr_right fun _ => ?_
  constructor
  · rintro ⟨⟨_⟩, span, rfl, excuses, inside⟩
    exact ⟨span, excuses, inside⟩
  · rintro ⟨span, excuses, inside⟩
    exact ⟨_, span, rfl, excuses, inside⟩

/-! ### An interface of queries and a class that is put together -/

/-- Two interfaces, one above the other, and a class with a field, a constructor and a setter. -/
def orderCalls : List TableCall :=
  [ .declareType "org.springframework.data.repository.Repository" .interface,
    .declareType "Orders" .interface,
    .addInterface ⟨2⟩ ⟨1⟩,
    .declareMethod ⟨2⟩ "find_by_date" [] none,
    .declareMethod ⟨2⟩ "_find_by_date" [] none,
    .declareType autowiredName .annotationType,
    .declareType "org.springframework.stereotype.Service" .annotationType,
    .declareType "Billing" .class,
    .annotate ⟨9⟩ ⟨8⟩,
    .declareField ⟨9⟩ "orders" ⟨2⟩,
    .annotate ⟨10⟩ ⟨6⟩,
    .declareConstructor ⟨9⟩ [],
    .declareMethod ⟨9⟩ "setClock" [] none,
    .annotate ⟨12⟩ ⟨6⟩ ]

/-- The nodes of the lower interface and of the class. -/
def orderNodes : List TreeCall :=
  [ .start .interface (.ofLines 1 4),
    .setName ⟨1⟩ "Orders" (.ofLines 1 1),
    .setBinding ⟨1⟩ ⟨2⟩,
    .leaf .method (.ofLines 2 2),
    .setName ⟨2⟩ "find_by_date" (.ofLines 2 2),
    .setBinding ⟨2⟩ ⟨3⟩,
    .leaf .method (.ofLines 3 3),
    .setName ⟨3⟩ "_find_by_date" (.ofLines 3 3),
    .setBinding ⟨3⟩ ⟨4⟩,
    .finish,
    .start .class (.ofLines 5 10),
    .setName ⟨4⟩ "Billing" (.ofLines 5 5),
    .setBinding ⟨4⟩ ⟨9⟩,
    .leaf .annotationUse (.ofLines 5 5),
    .setName ⟨5⟩ "Transactional" (.ofLines 5 5),
    .leaf .variable (.ofLines 6 6),
    .setBinding ⟨6⟩ ⟨10⟩,
    .setRole ⟨6⟩ .member,
    .leaf .constructor (.ofLines 7 7),
    .setBinding ⟨7⟩ ⟨11⟩,
    .start .method (.ofLines 8 10),
    .setName ⟨8⟩ "setClock" (.ofLines 8 8),
    .setBinding ⟨8⟩ ⟨12⟩,
    .leaf .parameters (.ofLines 8 9) ]

/-- The unit of the two types. -/
def orderUnit : SourceUnit :=
  { path := "Orders.java"
    source := ""
    tree := (orderNodes.foldl TreeCall.apply (.new (.ofLines 1 10))).build
    table := Table.build orderCalls }

theorem built_orders : orderUnit.table.Built := Table.built_iff.2 ⟨orderCalls, rfl⟩

theorem acyclic_above_orders : Acyclic orderUnit.table.Above :=
  Table.acyclic_of_bindings orderUnit.table.linearParents (fun _ _ above => above)
    (fun _ _ => Table.Above.inTable) (by decide +kernel)

/-- What is excluded from the unit, as calls. -/
theorem scan_orders : (scan {} orderUnit {}).1 =
    .build
      [ .lines "S100" (.ofLines 2 2), .lines "S1185" (.ofLines 5 10),
        .lines "S1258" (.ofLines 5 5), .lines "S2226" (.ofLines 6 6), .lines "S107" (.ofLines 7 8),
        .lines "S3553" (.ofLines 8 9) ] := by
  decide +kernel

/-! ### What is excused -/

/-- For every unit, all settings, whatever was asked before, and every finding: unless it is about
the name of a method, it is excluded exactly if some node excuses it; and no finding of a rule
outside the scope is excluded. -/
theorem excused_iff (built : unit.table.Built) (requested : cache.Requested unit.table)
    (finding : Finding) :
    (finding.rule ≠ .badMethodName →
      ((scan settings unit cache).1.excludes finding = true ↔
        ∃ node ∈ unit.tree.preorder, ∃ span, Excuses settings unit node finding.rule span ∧
          span.startLine ≤ finding.line ∧ finding.line ≤ span.endLine)) ∧
    ((scan settings unit cache).1.excludes finding = true →
      scope.contains finding.rule = true) := by
  have excused (other : finding.rule ≠ .badMethodName) :
      (scan settings unit cache).1.excludes finding = true ↔
        ∃ node ∈ unit.tree.preorder, ∃ span, Excuses settings unit node finding.rule span ∧
          span.startLine ≤ finding.line ∧ finding.line ≤ span.endLine := by
    apply excludes_scan_iff settings built requested
    intro isName
    exact absurd (congrArg RuleKey.mk isName) other
  refine ⟨excused, fun excluded => ?_⟩
  by_cases isName : finding.rule = .badMethodName
  · rw [isName]
    rfl
  · obtain ⟨node, -, span, excuses, -⟩ := (excused isName).1 excluded
    exact excuses.inScope

/-- The header of the setter is excused on both of its lines; the field is not excused like a
constructor. -/
theorem excused_iff_orders :
    (∃ node ∈ orderUnit.tree.preorder, ∃ span,
      Excuses {} orderUnit node .optionalAsParameter span ∧ span.startLine ≤ 9 ∧
        9 ≤ span.endLine) ∧
    ¬ ∃ node ∈ orderUnit.tree.preorder, ∃ span,
      Excuses {} orderUnit node .tooManyParameters span ∧ span.startLine ≤ 6 ∧
        6 ≤ span.endLine := by
  have setter := excused_iff {} built_orders .empty (.onLine .optionalAsParameter 9)
  have field := excused_iff {} built_orders .empty (.onLine .tooManyParameters 6)
  rw [scan_orders] at setter field
  constructor
  · exact (setter.1 (by decide)).1 (by decide)
  · intro excused
    exact absurd ((field.1 (by decide)).2 excused) (by decide)

/-- Where supertypes do not run in a circle, a finding about the name of a method is excluded exactly
on the lines of the names of methods that are queries. -/
theorem query_names_iff (built : unit.table.Built) (acyclic : Acyclic unit.table.Above)
    (requested : cache.Requested unit.table) (finding : Finding)
    (isName : finding.rule = .badMethodName) :
    (scan settings unit cache).1.excludes finding = true ↔
      ∃ method ∈ unit.tree.preorder, unit.tree.kind method = .method ∧ IsQuery unit method ∧
        (unit.tree.nameSpan method).startLine ≤ finding.line ∧
          finding.line ≤ (unit.tree.nameSpan method).endLine := by
  rw [excludes_scan_iff settings built requested fun _ => acyclic]
  refine exists_congr fun method => and_congr_right fun _ => ?_
  constructor
  · rintro ⟨span, excuses, inside⟩
    generalize finding.rule = rule at excuses isName
    cases excuses with
    | query isMethod query => exact ⟨isMethod, query, inside⟩
    | _ => exact absurd isName (by decide)
  · rintro ⟨isMethod, query, inside⟩
    exact ⟨_, isName ▸ .query isMethod query, inside⟩

theorem query_names_iff_orders :
    (∃ method ∈ orderUnit.tree.preorder, orderUnit.tree.kind method = .method ∧
      IsQuery orderUnit method ∧ (orderUnit.tree.nameSpan method).startLine ≤ 2 ∧
        2 ≤ (orderUnit.tree.nameSpan method).endLine) ∧
    ¬ ∃ method ∈ orderUnit.tree.preorder, orderUnit.tree.kind method = .method ∧
      IsQuery orderUnit method ∧ (orderUnit.tree.nameSpan method).startLine ≤ 8 ∧
        8 ≤ (orderUnit.tree.nameSpan method).endLine := by
  have query :=
    query_names_iff {} built_orders acyclic_above_orders .empty (.onLine .badMethodName 2) rfl
  have setter :=
    query_names_iff {} built_orders acyclic_above_orders .empty (.onLine .badMethodName 8) rfl
  rw [scan_orders] at query setter
  constructor
  · exact query.1 (by decide)
  · intro excused
    exact absurd (setter.2 excused) (by decide)

/-- A name that begins with a low line is not taken for a query, although another low line has a
part on either side. -/
theorem not_excluded_leading_separator :
    orderUnit.table.Built ∧ Acyclic orderUnit.table.Above ∧
    (∃ method ∈ orderUnit.tree.preorder, orderUnit.tree.kind method = .method ∧
      IsInRepository orderUnit method ∧
      orderUnit.tree.name method = some "_find_by_date" ∧ IsParted "_find_by_date" ∧
      (orderUnit.tree.nameSpan method).startLine ≤ 3 ∧
        3 ≤ (orderUnit.tree.nameSpan method).endLine) ∧
    (scan {} orderUnit {}).1.excludes (.onLine .badMethodName 3) = false := by
  refine ⟨built_orders, acyclic_above_orders, ⟨⟨3⟩, ?_⟩, by rw [scan_orders]; decide⟩
  have facts : (⟨3⟩ : NodeId) ∈ orderUnit.tree.preorder ∧
      (orderUnit.table.entry ⟨4⟩).owner = some ⟨2⟩ ∧
      orderUnit.table.declaredTypeOf ⟨2⟩ = some ⟨2⟩ ∧ orderUnit.table.isReference ⟨2⟩ ∧
      (orderUnit.table.entry ⟨1⟩).qualifiedName = repositoryName ∧
      orderUnit.table.isKnown ⟨1⟩ ∧ orderUnit.table.Above ⟨2⟩ ⟨1⟩ := by decide +kernel
  obtain ⟨visited, isOwner, isDeclared, reference, isName, known, above⟩ := facts
  have isBelow : orderUnit.table.SubtypeOfName ⟨2⟩ repositoryName :=
    .inr ⟨⟨1⟩, isName, Table.isKnown_of_isReference reference, known,
      .inr ⟨reference, .inr (.single above)⟩⟩
  exact ⟨visited, rfl, ⟨⟨4⟩, ⟨2⟩, ⟨2⟩, rfl, isOwner, isDeclared, isBelow⟩, rfl,
    ⟨"_find".toList, "by_date".toList, by decide⟩, by decide⟩

end FrameworkFilter

end JavaInspect
