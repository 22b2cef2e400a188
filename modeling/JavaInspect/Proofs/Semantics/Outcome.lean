import JavaInspect.Proofs.Semantics.Updates

/-!
# Outcomes of queries

What a query does is stated about its answer and the cache that it leaves behind. A
query that starts from a valid cache leaves a valid one that has only grown; then
outcomes follow each other, and what an earlier answer shows is still shown later.
-/

namespace JavaInspect

namespace Query

open Cache

variable {Answer Next Item Shown : Type} {table : Table} {blame : SemanticFault → Prop}
  {query : Query Answer} {next : Answer → Query Next} {before : Cache} {symbol : SymbolId}
  {binding : BindingId}

theorem bind_apply : (query >>= next) before = next (query before).1 (query before).2 := rfl

/-- Reading the cache changes nothing. -/
theorem get_bind_apply {next : Cache → Query Next} :
    (MonadState.get >>= next : Query Next) before = next before before := rfl

theorem readSymbol_bind_apply {next : SymbolFacade → Query Next} :
    (readSymbol symbol >>= next) before = next (before.symbol symbol) before := rfl

/-- What holds of the answer of a query and of the cache that it leaves behind. -/
def Ensures (query : Query Answer) (before : Cache) (claim : Answer → Cache → Prop) : Prop :=
  claim (query before).1 (query before).2

namespace Ensures

variable {meaning : Answer → Cache → Prop} {final : Next → Cache → Prop}

theorem bind (first : Ensures query before meaning)
    (second : ∀ answer middle, meaning answer middle → Ensures (next answer) middle final) :
    Ensures (query >>= next) before final :=
  second _ _ first

theorem get {next : Cache → Query Next} (ensures : Ensures (next before) before final) :
    Ensures (MonadState.get >>= next) before final :=
  ensures

end Ensures

/-- A query leaves a valid cache that has grown, and its answer has a meaning there. -/
def Yields (table : Table) (blame : SemanticFault → Prop) (query : Query Answer) (before : Cache)
    (meaning : Answer → Cache → Prop) : Prop :=
  Ensures query before fun answer after => Leads table blame before after ∧ meaning answer after

namespace Yields

variable {meaning weaker : Answer → Cache → Prop} {final : Next → Cache → Prop}

theorem imp (yields : Yields table blame query before meaning)
    (implies : ∀ answer after, Leads table blame before after → meaning answer after →
      weaker answer after) : Yields table blame query before weaker :=
  ⟨yields.1, implies _ _ yields.1 yields.2⟩

/-- What always holds of an outcome holds under a condition. -/
theorem always {condition : Prop} (yields : Yields table blame query before meaning) :
    Yields table blame query before fun answer after => condition → meaning answer after :=
  yields.imp fun _ _ _ holds _ => holds

theorem blameMore {strong weak : SemanticFault → Prop}
    (implies : ∀ fault, strong fault → weak fault)
    (yields : Yields table strong query before meaning) : Yields table weak query before meaning :=
  ⟨yields.1.imp implies, yields.2⟩

theorem pure {answer : Answer} (valid : before.Valid table) (holds : meaning answer before) :
    Yields table blame (Pure.pure answer) before meaning :=
  ⟨.refl valid, holds⟩

theorem bind (first : Yields table blame query before meaning)
    (second : ∀ answer middle, Leads table blame before middle → meaning answer middle →
      Yields table blame (next answer) middle final) :
    Yields table blame (query >>= next) before final := by
  rcases first with ⟨leads, holds⟩
  rcases second _ _ leads holds with ⟨leadsOn, finally'⟩
  exact ⟨leads.trans leadsOn, finally'⟩

theorem map {change : Answer → Next} (yields : Yields table blame query before meaning)
    (implies : ∀ answer after, Leads table blame before after → meaning answer after →
      final (change answer) after) : Yields table blame (change <$> query) before final :=
  ⟨yields.1, implies _ _ yields.1 yields.2⟩

theorem get {next : Cache → Query Next} (yields : Yields table blame (next before) before final) :
    Yields table blame (MonadState.get >>= next) before final :=
  yields

theorem readSymbol {next : SymbolFacade → Query Next}
    (yields : Yields table blame (next (before.symbol symbol)) before final) :
    Yields table blame (Query.readSymbol symbol >>= next) before final :=
  yields

theorem noteHit (valid : before.Valid table) :
    Yields table blame Query.noteHit before fun _ after => after = before.noteHit :=
  ⟨leads_noteHit valid, rfl⟩

theorem recordFault {fault : SemanticFault} (valid : before.Valid table) (isBlamed : blame fault) :
    Yields table blame (Query.recordFault fault) before fun _ after =>
      after = before.recordFault fault :=
  ⟨leads_recordFault valid isBlamed, rfl⟩

/-- Asking one by one: what is shown for an item goes on being shown. -/
theorem mapM (isShown : Cache → Answer → Item → Prop)
    (stable : ∀ {before after answer item}, Keeps before after → isShown before answer item →
      isShown after answer item)
    {ask : Item → Query Answer} {items : List Item} (valid : before.Valid table)
    (asked : ∀ item ∈ items, ∀ middle, Leads table blame before middle →
      Yields table blame (ask item) middle fun answer after => isShown after answer item) :
    Yields table blame (items.mapM ask) before fun answers after =>
      List.Forall₂ (isShown after) answers items := by
  induction items generalizing before with
  | nil => exact .pure valid .nil
  | cons item items ih =>
      rw [List.mapM_cons]
      apply bind (asked item List.mem_cons_self before (.refl valid))
      intro answer middle leads itemShown
      have askedRest : ∀ item ∈ items, ∀ later, Leads table blame middle later →
          Yields table blame (ask item) later fun answer after => isShown after answer item :=
        fun item member later leadsOn =>
          asked item (List.mem_cons_of_mem _ member) later (leads.trans leadsOn)
      apply bind (ih leads.valid askedRest)
      intro answers after leadsOn restShown
      exact .pure leadsOn.valid (.cons (stable leadsOn.toKeeps itemShown) restShown)

/-- Asking whether any item passes: the answer is that of a test that asks nothing. -/
theorem anyM {ask : Item → Query Bool} {test : Item → Bool} {items : List Item}
    (valid : before.Valid table) {condition : Prop}
    (asked : ∀ item ∈ items, ∀ middle, Leads table blame before middle →
      Yields table blame (ask item) middle fun answer _ => condition → answer = test item) :
    Yields table blame (items.anyM ask) before fun answer _ =>
      condition → answer = items.any test := by
  induction items generalizing before with
  | nil => exact .pure valid fun _ => rfl
  | cons item items ih =>
      rw [List.anyM]
      apply bind (asked item List.mem_cons_self before (.refl valid))
      intro answer middle leads answered
      cases answer with
      | true =>
          apply Yields.pure leads.valid
          intro holds
          simp [← answered holds]
      | false =>
          have askedRest : ∀ item ∈ items, ∀ later, Leads table blame middle later →
              Yields table blame (ask item) later fun answer _ => condition → answer = test item :=
            fun item member later leadsOn =>
              asked item (List.mem_cons_of_mem _ member) later (leads.trans leadsOn)
          apply (ih leads.valid askedRest).imp
          intro answer after _ restAnswered holds
          simp [← answered holds, restAnswered holds]

end Yields

end Query

end JavaInspect
