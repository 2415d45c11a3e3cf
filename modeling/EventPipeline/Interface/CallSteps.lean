import EventPipeline.Interface.SystemSteps

/-!
# One call and its copy in one step

`CallStep` follows one tag: its copy enters the queue, its call moves, or neither changes. A
copy keeps its body for ever.
-/

set_option autoImplicit false

namespace EventPipeline.Interface

open EventPipeline.Model EventPipeline.Program EventPipeline.Computation

section
variable {cfg : Settings} {now : Time} {subscribers : List Subscriber} {s s' : Intake}
  {attempts attempts' : List DeliveryAttempt} {t : Tag} {a : HandlerAction}

/-- A step of call `t` leaves the other calls and their copies alone. -/
theorem HandlerStep.frame (h : HandlerStep cfg now subscribers s attempts t a s' attempts')
    {t' : Tag} (ht : t' ≠ t) : s'.handlers t' = s.handlers t' ∧ s'.copies t' = s.copies t' := by
  cases h with
  | commit hh hc =>
    obtain ⟨_, _, rfl⟩ := commitEvent_eq_some hc
    simp [ht]
  | commitLost hh hc =>
    obtain ⟨_, _, rfl⟩ := commitEvent_eq_some hc
    simp [ht, raiseFrom]
  | _ => simp [ht, raiseFrom, crashHandler]

/-- A step of call `t` changes at most the state of its copy. -/
theorem HandlerStep.copy (h : HandlerStep cfg now subscribers s attempts t a s' attempts') :
    ∃ f : CopyState → CopyState,
      s'.copies t = (s.copies t).map fun c => { c with state := f c.state } := by
  have hsame : ∀ c : Option Copy, c = c.map fun c => { c with state := id c.state } := by
    intro c
    cases c <;> rfl
  cases h with
  | discard _ _ _ => exact ⟨fun _ => .unacked, by simp⟩
  | raised _ _ _ =>
    exact ⟨fun _ => processOnException processRequeue .unacked,
      by simp [raiseFrom, Function.comp_def]⟩
  | event _ _ _ => exact ⟨fun _ => .unacked, by simp⟩
  | insertRaised _ _ => exact ⟨processOnException processRequeue, by simp [raiseFrom]⟩
  | commit hh hc =>
    obtain ⟨_, _, rfl⟩ := commitEvent_eq_some hc
    exact ⟨id, hsame _⟩
  | commitLost hh hc =>
    obtain ⟨_, _, rfl⟩ := commitEvent_eq_some hc
    exact ⟨processOnException processRequeue, by simp [raiseFrom]⟩
  | dbError => exact ⟨processOnException processRequeue, by simp [raiseFrom]⟩
  | ackOnly _ => exact ⟨fun _ => .acked, by simp⟩
  | ackEarly _ => exact ⟨fun _ => .acked, by simp⟩
  | crash =>
    -- The broker puts the copy back, as after a rejection with requeue.
    refine ⟨processOnException true, ?_⟩
    rw [crashHandler, Intake.modifyCopy_copies, Function.update_self]
    rfl
  | _ => exact ⟨id, hsame _⟩

/-- A call never changes the body of its copy. -/
theorem HandlerStep.body (h : HandlerStep cfg now subscribers s attempts t a s' attempts')
    {c' : Copy} (hc' : s'.copies t = some c') : ∃ c, s.copies t = some c ∧ c.body = c'.body := by
  obtain ⟨f, hf⟩ := h.copy
  rw [hf] at hc'
  obtain ⟨c, hc, rfl⟩ := Option.map_eq_some_iff.1 hc'
  exact ⟨c, hc, rfl⟩

end

/-- What a step does to the copy `t` and its call. SOURCE: app/api/events.py:35-43,
app/consumer/rabbitmq.py:106-197,234-249 -/
inductive CallStep (cfg : Settings) (s s' : World) (t : Tag) : Action → Prop
  | still {a : Action} (hc : s'.intake.copies t = s.intake.copies t)
      (hh : s'.intake.handlers t = s.intake.handlers t) : CallStep cfg s s' t a
  | published {body : Body} (hc : s.intake.copies t = none)
      (hc' : s'.intake.copies t = some ⟨body, .ready⟩)
      (hh : s'.intake.handlers t = s.intake.handlers t) : CallStep cfg s s' t (.publish t body)
  | reEnqueued {p : ConsumerId} {a : ReconcilerAction} {ik : IdempotencyKey}
      {todo : List IdempotencyKey} {dirty : List KeyWrite}
      (hp : s.intake.reconcilers p = .running (ik :: todo) dirty)
      (hc : s.intake.copies t = none)
      (hc' : s'.intake.copies t = some ⟨reEnqueueBody ik, .ready⟩)
      (hh : s'.intake.handlers t = s.intake.handlers t) : CallStep cfg s s' t (.reconciler p a)
  | moved {a : HandlerAction}
      (h : HandlerStep cfg s.now s.registry.subscribers s.intake s.delivery.attempts t a s'.intake
        s'.delivery.attempts) : CallStep cfg s s' t (.handler t a)

/-- Every step does one of these to the copy and the call. -/
theorem callStep_of_step {cfg : Settings} {s s' : World} {a : Action}
    (h : step cfg s a = some s') (t : Tag) : CallStep cfg s s' t a := by
  have henqueue : ∀ (p : ConsumerId) (b : ReconcilerAction) (ik : IdempotencyKey) (todo dirty)
      (t' : Tag), s.intake.reconcilers p = .running (ik :: todo) dirty →
      s.intake.copies t' = none →
      s'.intake.copies = Function.update s.intake.copies t' (some ⟨reEnqueueBody ik, .ready⟩) →
      s'.intake.handlers = s.intake.handlers → CallStep cfg s s' t (.reconciler p b) := by
    intro p b ik todo dirty t' hp hc hcopies hh
    by_cases ht : t = t'
    · subst ht
      exact .reEnqueued hp hc (by rw [hcopies, Function.update_self]) (by rw [hh])
    · exact .still (by rw [hcopies, Function.update_of_ne ht]) (by rw [hh])
  cases worldStep_of_eq_some h with
  | @publish t' body hc =>
    by_cases ht : t = t'
    · subst ht
      exact .published hc (Function.update_self _ _ _) rfl
    · exact .still (Function.update_of_ne ht _ _) rfl
  | @handler t' b i attempts hs =>
    by_cases ht : t = t'
    · subst ht
      exact .moved hs
    · obtain ⟨hh, hc⟩ := hs.frame ht
      exact .still hc hh
  | reconciler hs =>
    cases hs with
    | accepted hp _ hc => exact henqueue _ _ _ _ _ _ hp hc rfl rfl
    | errorAccepted hp _ hc => exact henqueue _ _ _ _ _ _ hp hc rfl rfl
    | _ => exact .still rfl rfl
  | _ => exact .still rfl rfl

/-- A copy that is in the queue keeps its body. -/
theorem CallStep.body {cfg : Settings} {s s' : World} {t : Tag} {a : Action}
    (h : CallStep cfg s s' t a) {c : Copy} (hc : s.intake.copies t = some c) :
    ∃ st, s'.intake.copies t = some ⟨c.body, st⟩ := by
  cases h with
  | still heq _ => exact ⟨c.state, heq.trans hc⟩
  | published hnone _ _ =>
    rw [hnone] at hc
    cases hc
  | reEnqueued _ hnone _ _ =>
    rw [hnone] at hc
    cases hc
  | moved hs =>
    obtain ⟨f, hf⟩ := hs.copy
    exact ⟨f c.state, by rw [hf, hc]; rfl⟩

end EventPipeline.Interface
