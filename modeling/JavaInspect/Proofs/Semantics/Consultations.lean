import JavaInspect.Proofs.Semantics.Histories

/-!
# Consultations

Several parties consult the semantic model through one cache. A consultation is a request
together with the fault that it comes upon. Of what was consulted, the cache keeps the first
fault; a party that touches no cycle reports none. In an orderly table nobody comes upon a
fault, and what is concluded from answers does not depend on what was asked before.
-/

namespace JavaInspect

open Cache Query

/-- A request that was made, with the fault that it has come upon. -/
structure Consultation where
  request : Request
  fault : Option SemanticFault

/-- The fault that a request comes upon, whether or not an earlier one is kept. -/
def Request.faultIn (table : Table) (cache : Cache) (request : Request) : Option SemanticFault :=
  (request.ask table { cache with fault := none }).2.fault

namespace Consultation

variable (table : Table) (made : List Consultation)

/-- The first fault that was come upon. -/
def firstFault : Option SemanticFault :=
  made.findSome? (·.fault)

/-- A fault that one of the requests can come upon. -/
def Touch (fault : SemanticFault) : Prop :=
  ∃ consultation ∈ made, consultation.request.Touches table fault

variable {table made} {more : List Consultation} {fault : SemanticFault}

theorem firstFault_append :
    firstFault (made ++ more) = (firstFault made).or (firstFault more) :=
  List.findSome?_append

theorem Touch.append_right (touch : Touch table made fault) : Touch table (made ++ more) fault := by
  rcases touch with ⟨consultation, member, touches⟩
  exact ⟨consultation, List.mem_append_left _ member, touches⟩

theorem Touch.append_left (touch : Touch table more fault) : Touch table (made ++ more) fault := by
  rcases touch with ⟨consultation, member, touches⟩
  exact ⟨consultation, List.mem_append_right _ member, touches⟩

end Consultation

namespace Cache

/-- Consultations lead from one cache to another. A party that holds on to a facade need not
look it up again, so the number of hits is left open. -/
inductive Consulted (table : Table) (before : Cache) : List Consultation → Cache → Prop where
  | refl : Consulted table before [] before
  | ask {made : List Consultation} {middle : Cache} (soFar : Consulted table before made middle)
      (request : Request) :
      Consulted table before (made ++ [⟨request, request.faultIn table middle⟩])
        (request.ask table middle).2
  | recount {made : List Consultation} {middle : Cache}
      (soFar : Consulted table before made middle) (hits : Nat) :
      Consulted table before made { middle with hits }

/-- The cache of a context of which nothing but requests were made. -/
def Requested (table : Table) (cache : Cache) : Prop :=
  ∃ made, Consulted table {} made cache

variable {table : Table} {cache before middle after : Cache} {made more : List Consultation}

namespace Consulted

theorem trans (first : Consulted table before made middle)
    (second : Consulted table middle more after) :
    Consulted table before (made ++ more) after := by
  induction second with
  | refl => rwa [List.append_nil]
  | ask _ request ih =>
      rw [← List.append_assoc]
      exact ih.ask request
  | recount _ hits ih => exact ih.recount hits

/-- Consultations keep a valid cache valid, and report only cycles that they touch. -/
theorem leads (arraysEnd : table.ArraysEnd) (valid : before.Valid table) (idle : Idle before)
    (consulted : Consulted table before made after) :
    Leads table (Consultation.Touch table made) before after := by
  induction consulted with
  | refl => exact .refl valid
  | ask _ request ih =>
      have asked := (request.yields_ask_touching arraysEnd ih.valid (idle.later ih.toGrows)).1
      apply (ih.imp fun _ => Consultation.Touch.append_right).trans
      apply asked.imp
      intro fault touches
      exact Consultation.Touch.append_left ⟨_, List.mem_singleton_self _, touches⟩
  | @recount _ middle _ hits ih =>
      have keeps : Keeps middle { middle with hits } := .of_same rfl rfl
      exact ih.trans (leads_of_validTypes ih.valid keeps
        (ih.valid.toValidTypes.of_same keeps rfl rfl) rfl rfl rfl)

end Consulted

theorem fault_ask (arraysEnd : table.ArraysEnd) (valid : cache.Valid table) (idle : Idle cache)
    (request : Request) :
    (request.ask table cache).2.fault = cache.fault.or (request.faultIn table cache) := by
  cases isFault : cache.fault with
  | none =>
      have same : { cache with fault := none } = cache := by rw [← isFault]
      rw [Request.faultIn, same, Option.none_or]
  | some fault =>
      have asked := (request.yields_ask_touching arraysEnd valid idle).1
      rw [asked.fault fault isFault, Option.some_or]

/-- The cache keeps the first fault. -/
theorem Consulted.fault_eq (arraysEnd : table.ArraysEnd) (valid : before.Valid table)
    (idle : Idle before) (consulted : Consulted table before made after) :
    after.fault = before.fault.or (Consultation.firstFault made) := by
  induction consulted with
  | refl => simp [Consultation.firstFault]
  | ask soFar request ih =>
      have leads := soFar.leads arraysEnd valid idle
      rw [fault_ask arraysEnd leads.valid (idle.later leads.toGrows), ih, Option.or_assoc,
        Consultation.firstFault_append]
      simp [Consultation.firstFault]
  | recount _ hits ih => exact ih

/-- Without a fault before, none is kept where no cycle is touched. -/
theorem Consulted.fault_of_untouched (arraysEnd : table.ArraysEnd) (valid : before.Valid table)
    (idle : Idle before) (consulted : Consulted table before made after)
    (noFault : before.fault = none)
    (untouched : ∀ fault, ¬ Consultation.Touch table made fault) : after.fault = none := by
  cases isFault : after.fault with
  | none => rfl
  | some fault =>
      rcases (consulted.leads arraysEnd valid idle).blamed fault isFault with already | touched
      · rw [noFault] at already
        cases already
      · exact absurd touched (untouched fault)

namespace Requested

theorem empty : Requested table {} := ⟨[], .refl⟩

theorem later (requested : before.Requested table) (consulted : Consulted table before made after) :
    after.Requested table := by
  rcases requested with ⟨earlier, soFar⟩
  exact ⟨earlier ++ made, soFar.trans consulted⟩

variable (arraysEnd : table.ArraysEnd) (requested : cache.Requested table)
include arraysEnd requested

theorem valid : cache.Valid table := by
  rcases requested with ⟨made, consulted⟩
  exact (consulted.leads arraysEnd .empty .empty).valid

theorem idle : Idle cache := by
  rcases requested with ⟨made, consulted⟩
  exact Idle.empty.later (consulted.leads arraysEnd .empty .empty).toGrows

end Requested

end Cache

/-! ## Inquiries -/

/-- A way to come to a result by requests: what is asked next depends only on the answers
so far. -/
inductive Inquiry (Result : Type) where
  | conclude (result : Result)
  | ask (request : Request) (goOn : Answer → Inquiry Result)

namespace Inquiry

variable {Result : Type}

/-- Ask all requests through the cache. -/
def run (table : Table) : Inquiry Result → Query Result
  | .conclude result => pure result
  | .ask request goOn => do
      let answer ← request.ask table
      (goOn answer).run table

/-- The result that the table determines. -/
def conclusion (table : Table) : Inquiry Result → Result
  | .conclude result => result
  | .ask request goOn => (goOn (request.meaning table)).conclusion table

variable {table : Table} {cache : Cache}

theorem consulted_run (inquiry : Inquiry Result) :
    ∃ made, Consulted table cache made (inquiry.run table cache).2 := by
  induction inquiry generalizing cache with
  | conclude result => exact ⟨[], .refl⟩
  | ask request goOn ih =>
      rcases ih (request.ask table cache).1 with ⟨made, consulted⟩
      exact ⟨_, (Consulted.refl.ask request).trans consulted⟩

/-- Where neither owners nor supertypes run in a circle, a result does not depend on the
requests that were made before. -/
theorem run_eq_conclusion (arraysEnd : table.ArraysEnd) (orderly : table.Orderly)
    (requested : cache.Requested table) (inquiry : Inquiry Result) :
    (inquiry.run table cache).1 = inquiry.conclusion table := by
  induction inquiry generalizing cache with
  | conclude result => rfl
  | ask request goOn ih =>
      have yields := request.yields_ask arraysEnd (requested.valid arraysEnd)
        (requested.idle arraysEnd)
      have answered : (request.ask table cache).1 = request.meaning table := yields.2 orderly
      calc
        ((ask request goOn).run table cache).1
          = ((goOn (request.ask table cache).1).run table (request.ask table cache).2).1 := rfl
        _ = (goOn (request.ask table cache).1).conclusion table :=
          ih _ (requested.later (Consulted.refl.ask request))
        _ = (ask request goOn).conclusion table := by rw [answered, conclusion]

end Inquiry

end JavaInspect
