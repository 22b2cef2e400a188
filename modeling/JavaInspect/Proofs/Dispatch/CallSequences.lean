import JavaInspect.Proofs.Dispatch.Order

/-!
# Sequences of calls on a dispatcher

A dispatcher runs once. It is idle until then and done afterwards, whether the run went through or
was cancelled. What is asked for in the wrong state is rejected without a trace, and once the
dispatcher is done no call changes it any more.
-/

namespace JavaInspect

/-- A call on a dispatcher. -/
inductive DispatcherCall where
  | register (registration : Registration)
  | run (unit : SourceUnit) (session : Session)
  | findings
  | faultedRules
  | ruleCount
  | nodesVisited

/-- What a call that does not fail answers. -/
inductive DispatcherReply where
  | registered
  | ran
  | findings (found : List Finding)
  | rules (keys : List RuleKey)
  | count (number : Nat)

namespace DispatcherCall

/-- Whether a call runs the dispatcher. -/
def isRun : DispatcherCall → Bool
  | .run .. => true
  | _ => false

/-- The state that a call asks for. -/
def needs? : DispatcherCall → Option DispatchState
  | .register _ | .run .. => some .idle
  | .findings => some .done
  | .faultedRules | .ruleCount | .nodesVisited => none

end DispatcherCall

/-- The answer of a call that may have failed. -/
def DispatcherReply.orError (reply : DispatcherReply) :
    Option AnalysisError → Except AnalysisError DispatcherReply
  | none => .ok reply
  | some error => .error error

namespace Dispatcher

/-- Make a call: what it comes to, and the dispatcher as the call has left it. -/
def perform (dispatcher : Dispatcher) :
    DispatcherCall → Except AnalysisError DispatcherReply × Dispatcher
  | .register registration =>
      let (error?, left) := registration.apply dispatcher
      (DispatcherReply.registered.orError error?, left)
  | .run unit session =>
      let (error?, left, _) := dispatcher.run unit session
      (DispatcherReply.ran.orError error?, left)
  | .findings => (dispatcher.findings.map .findings, dispatcher)
  | .faultedRules => (.ok (.rules dispatcher.faultedRules), dispatcher)
  | .ruleCount => (.ok (.count dispatcher.ruleCount), dispatcher)
  | .nodesVisited => (.ok (.count dispatcher.visited), dispatcher)

/-- The dispatcher after calls that are made one after the other. -/
def after (dispatcher : Dispatcher) (calls : List DispatcherCall) : Dispatcher :=
  calls.foldl (fun dispatcher call => (dispatcher.perform call).2) dispatcher

variable {dispatcher : Dispatcher} {call : DispatcherCall} {calls : List DispatcherCall}
  {unit : SourceUnit} {session : Session}

theorem after_append (earlier later : List DispatcherCall) :
    dispatcher.after (earlier ++ later) = (dispatcher.after earlier).after later :=
  List.foldl_append

/-! ## One call -/

theorem expect_eq_ok {state : DispatchState} (isState : dispatcher.state = state) :
    dispatcher.expect state = .ok () :=
  if_pos isState

theorem expect_eq_error {state : DispatchState} (different : dispatcher.state ≠ state) :
    dispatcher.expect state = .error (.invalidState state dispatcher.state) :=
  if_neg different

/-- A registration that comes too late adds no slot and no subscription. -/
theorem subscribe_of_ne {slot : Slot} {entering leaving : List NodeKind}
    (different : dispatcher.state ≠ .idle) : dispatcher.subscribe slot entering leaving =
      (some (.invalidState .idle dispatcher.state), dispatcher) := by
  rw [subscribe, expect_eq_error different]

/-- A run that comes too late calls no detector. -/
theorem run_of_ne (different : dispatcher.state ≠ .idle) : dispatcher.run unit session =
    (some (.invalidState .idle dispatcher.state), dispatcher, session) := by
  rw [Dispatcher.run, expect_eq_error different]

/-- In another state than the one that it asks for, a call is rejected and changes nothing. -/
theorem perform_of_ne {needed : DispatchState} (needs : call.needs? = some needed)
    (different : dispatcher.state ≠ needed) :
    dispatcher.perform call = (.error (.invalidState needed dispatcher.state), dispatcher) := by
  cases call with
  | register registration =>
      cases needs
      rw [perform, registration.apply_eq, subscribe_of_ne different]
      rfl
  | run unit session =>
      cases needs
      rw [perform, run_of_ne different]
      rfl
  | findings =>
      cases needs
      rw [perform, Dispatcher.findings, expect_eq_error different]
      rfl
  | faultedRules | ruleCount | nodesVisited => cases needs

/-- A run of an idle dispatcher goes through or is cancelled, and is over in either case. -/
theorem perform_run (idle : dispatcher.state = .idle) (unit : SourceUnit) (session : Session) :
    (dispatcher.perform (.run unit session)).2.state = .done ∧
      ((dispatcher.perform (.run unit session)).1 = .ok .ran ∨
        (dispatcher.perform (.run unit session)).1 = .error (.cancelled unit.path)) := by
  rw [perform, Dispatcher.run, expect_eq_ok idle]
  rcases dispatcher.traverse unit unit.tree.moments { slots := dispatcher.slots, session } with
    ⟨aborted, progress⟩
  cases aborted with
  | false => exact ⟨rfl, .inl rfl⟩
  | true => exact ⟨rfl, .inr rfl⟩

/-- A registration on an idle dispatcher succeeds and leaves it idle. -/
theorem perform_register (idle : dispatcher.state = .idle) (registration : Registration) :
    (dispatcher.perform (.register registration)).2.state = .idle ∧
      (dispatcher.perform (.register registration)).1 = .ok .registered := by
  rw [perform, registration.apply_eq, subscribe, expect_eq_ok idle]
  exact ⟨idle, rfl⟩

/-- Only a run leads to another state. -/
theorem state_perform (call : DispatcherCall) :
    (dispatcher.perform call).2.state = if call.isRun then .done else dispatcher.state := by
  cases state : dispatcher.state with
  | idle =>
      cases call with
      | register registration => exact (perform_register state registration).1
      | run unit session => exact (perform_run state unit session).1
      | findings | faultedRules | ruleCount | nodesVisited => exact state
  | done =>
      cases call with
      | register | run =>
          have different : dispatcher.state ≠ .idle := by simp [state]
          rw [perform_of_ne rfl different, state, ite_self]
      | findings | faultedRules | ruleCount | nodesVisited => exact state

/-- A dispatcher that is done is the same after every call. -/
theorem perform_of_done (isDone : dispatcher.state = .done) (call : DispatcherCall) :
    (dispatcher.perform call).2 = dispatcher := by
  cases call with
  | register | run =>
      have different : dispatcher.state ≠ .idle := by simp [isDone]
      rw [perform_of_ne rfl different]
  | findings | faultedRules | ruleCount | nodesVisited => rfl

/-- A call fails by being rejected, or because the one run is cancelled. -/
theorem error_perform {error : AnalysisError}
    (fails : (dispatcher.perform call).1 = .error error) :
    (∃ needed, call.needs? = some needed ∧ dispatcher.state ≠ needed ∧
        error = .invalidState needed dispatcher.state) ∨
      ∃ unit session, call = .run unit session ∧ dispatcher.state = .idle ∧
        error = .cancelled unit.path := by
  have rejected {needed : DispatchState} (needs : call.needs? = some needed)
      (different : dispatcher.state ≠ needed) : ∃ needed, call.needs? = some needed ∧
        dispatcher.state ≠ needed ∧ error = .invalidState needed dispatcher.state := by
    rw [perform_of_ne needs different] at fails
    exact ⟨needed, needs, different, (Except.error.inj fails).symm⟩
  cases call with
  | register registration =>
      by_cases idle : dispatcher.state = .idle
      · rw [(perform_register idle registration).2] at fails
        cases fails
      · exact .inl (rejected rfl idle)
  | run unit session =>
      by_cases idle : dispatcher.state = .idle
      · right
        rcases (perform_run idle unit session).2 with completed | isCancelled
        · rw [completed] at fails
          cases fails
        · rw [isCancelled] at fails
          exact ⟨unit, session, rfl, idle, (Except.error.inj fails).symm⟩
      · exact .inl (rejected rfl idle)
  | findings =>
      by_cases isDone : dispatcher.state = .done
      · rw [perform, Dispatcher.findings, expect_eq_ok isDone] at fails
        cases fails
      · exact .inl (rejected rfl isDone)
  | faultedRules | ruleCount | nodesVisited => cases fails

theorem perform_findings (isDone : dispatcher.state = .done) :
    (dispatcher.perform .findings).1 = .ok (.findings dispatcher.found) := by
  rw [perform, Dispatcher.findings, expect_eq_ok isDone]
  rfl

/-! ## Sequences of calls -/

theorem state_after (calls : List DispatcherCall) :
    (dispatcher.after calls).state =
      if calls.any DispatcherCall.isRun then .done else dispatcher.state := by
  induction calls generalizing dispatcher with
  | nil => rfl
  | cons call calls ih =>
      rw [after, List.foldl_cons, ← after, ih, state_perform, List.any_cons]
      cases call.isRun <;> simp

theorem after_of_done (isDone : dispatcher.state = .done) (calls : List DispatcherCall) :
    dispatcher.after calls = dispatcher := by
  induction calls with
  | nil => rfl
  | cons call calls ih => rw [after, List.foldl_cons, ← after, perform_of_done isDone, ih]

/-- A dispatcher runs once. After any sequence of calls on a fresh one it is done if one of them
was a run, however that run ended, and idle otherwise. A call that needs the other state, which is
a registration or a run once it is done and a request for findings as long as it is idle, is
rejected with both states named; the dispatcher is left as it was, and so is what the detectors
share. No other call fails, apart from the one run that may be cancelled. After the run nothing
changes any more, and the findings are the same every time. -/
theorem runs_once (cancellable : Bool) (earlier : List DispatcherCall) :
    let before := Dispatcher.after { cancellable } earlier
    (before.state = if earlier.any DispatcherCall.isRun then .done else .idle) ∧
    (∀ call needed, call.needs? = some needed → before.state ≠ needed →
      before.perform call = (.error (.invalidState needed before.state), before)) ∧
    (∀ unit session, before.state = .done → (before.run unit session).2.2 = session) ∧
    (∀ call error, (before.perform call).1 = .error error →
      (∃ needed, call.needs? = some needed ∧ before.state ≠ needed ∧
          error = .invalidState needed before.state) ∨
        ∃ unit session, call = .run unit session ∧ before.state = .idle ∧
          error = .cancelled unit.path) ∧
    (earlier.any DispatcherCall.isRun → ∃ found, ∀ later,
      Dispatcher.after { cancellable } (earlier ++ later) = before ∧
        ((Dispatcher.after { cancellable } (earlier ++ later)).perform .findings).1 =
          .ok (.findings found)) := by
  intro before
  refine ⟨state_after earlier, fun _ _ => perform_of_ne, ?_, fun _ _ => error_perform, ?_⟩
  · intro unit session isDone
    rw [run_of_ne (by simp [isDone])]
  · intro ran
    have isDone : before.state = .done := (state_after earlier).trans (if_pos ran)
    refine ⟨before.found, ?_⟩
    intro later
    have same : Dispatcher.after { cancellable } (earlier ++ later) = before :=
      (after_append earlier later).trans (after_of_done isDone later)
    rw [same]
    exact ⟨rfl, perform_findings isDone⟩

/-- The findings are asked for too early, and the one run is cancelled at once. It finds nothing,
and a detector that comes too late finds nothing either. -/
theorem runs_once_cancelled :
    let late := DispatcherCall.register (.forKinds (.recorder "B" [.class]))
    let before := Dispatcher.after { cancellable := true }
      [.findings, .register (.forKinds (.recorder "A" [.class])),
        .run Registration.classUnit { cancelled := true }]
    before.state = .done ∧ before.ruleCount = 1 ∧
      before.perform late = (.error (.invalidState .idle .done), before) ∧
      ((before.after [late, .run Registration.classUnit {}]).perform .findings).1 =
        .ok (.findings []) := by
  intro late before
  obtain ⟨isState, rejected, -, -, unchanged⟩ := runs_once true
    [.findings, .register (.forKinds (.recorder "A" [.class])),
      .run Registration.classUnit { cancelled := true }]
  obtain ⟨found, still⟩ := unchanged rfl
  have isDone : before.state = .done := isState
  have foundNothing : found = [] := by
    have asked := (still []).2
    rw [(still []).1, perform_findings isDone] at asked
    cases asked
    decide +kernel
  refine ⟨isDone, by decide +kernel, ?_, ?_⟩
  · have notIdle : before.state ≠ .idle := by
      rw [isDone]
      decide
    rw [rejected late .idle rfl notIdle, isDone]
  · rw [← after_append, (still [late, .run Registration.classUnit {}]).2, foundNothing]

example :
    (AnalysisError.invalidState .idle .done).message = "dispatcher is done, expected idle" := by
  rfl

end Dispatcher

end JavaInspect
