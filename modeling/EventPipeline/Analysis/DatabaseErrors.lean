import EventPipeline.Analysis.IntakeInvariant

/-!
# Database errors before the commit

`message.process(ignore_processed=True)` rejects the message when an exception leaves its
block before the ACK, and it does not requeue. So a database error before the commit leaves
the message neither recorded nor held by the broker, unless another copy of it was recorded
already.
-/

set_option autoImplicit false

namespace EventPipeline.Analysis

open EventPipeline.Model EventPipeline.Program EventPipeline.Interface EventPipeline.Computation

/-- An exception of a database call of call `t` before its commit takes effect: the step
`dbError` before or inside the transaction, or an INSERT with values that the database
refuses. SOURCE: app/consumer/rabbitmq.py:130-143 -/
inductive DatabaseException (s : Intake) (t : Tag) : HandlerAction → Prop
  | opening {ev : RawEvent} (hh : s.handlers t = .parsed ev) : DatabaseException s t .dbError
  | refused {ev : RawEvent} (hh : s.handlers t = .parsed ev) (hv : insertValues ev = none) :
      DatabaseException s t .insert
  | afterInsert {ev : NewEvent} {receivedAt : Time} (hh : s.handlers t = .inserted ev receivedAt) :
      DatabaseException s t .dbError
  | afterSelect {ev : NewEvent} {receivedAt readAt : Time} {seen : List Subscriber}
      (hh : s.handlers t = .selected ev receivedAt seen readAt) : DatabaseException s t .dbError

/-- The message is recorded, or the broker can still deliver the copy `t` of it. -/
def RecordedOrHeld (s : Intake) (t : Tag) (m : MessageId) : Prop :=
  m ∈ s.ids ∨ ∃ c, s.copies t = some c ∧ c.held = true

/-- A database exception before the commit meets a call that is not settled.
SOURCE: app/consumer/rabbitmq.py:131-142 -/
theorem unsettled_of_exception {s : Intake} {t : Tag} {a : HandlerAction}
    (h : DatabaseException s t a) : Unsettled (s.handlers t) := by
  cases h with
  | opening hh => rw [hh]; trivial
  | refused hh _ => rw [hh]; trivial
  | afterInsert hh => rw [hh]; trivial
  | afterSelect hh => rw [hh]; trivial

/-- The exception leaves `handle_message`, through the context manager.
SOURCE: app/consumer/rabbitmq.py:107 -/
theorem step_of_exception {cfg : Settings} {s s' : World} {t : Tag} {a : HandlerAction}
    (h : DatabaseException s.intake t a) (hs : step cfg s (.handler t a) = some s') :
    s'.intake = raiseFrom s.intake t := by
  obtain ⟨⟨i, attempts⟩, hi, rfl⟩ := Option.map_eq_some_iff.1 hs
  cases h with
  | opening hh =>
    simp only [handleMessage, hh] at hi
    cases hi
    rfl
  | refused hh hv =>
    simp only [handleMessage, hh, hv] at hi
    cases hi
    rfl
  | afterInsert hh =>
    simp only [handleMessage, hh] at hi
    cases hi
    rfl
  | afterSelect hh =>
    simp only [handleMessage, hh] at hi
    cases hi
    rfl

/-- The call has ended after a database exception, and its message is recorded or held
exactly when it was recorded, by another copy, before the exception. The body does not matter.
SOURCE: app/consumer/rabbitmq.py:106-147 -/
theorem recordedOrHeld_after_exception_iff (cfg : Settings) (s s' : World) (t : Tag) (c : Copy)
    (m : MessageId) (a : HandlerAction) (h : Reachable (step cfg) World.init s)
    (hc : s.intake.copies t = some c) (ha : DatabaseException s.intake t a)
    (hs : step cfg s (.handler t a) = some s') :
    s'.intake.handlers t = .idle ∧ (RecordedOrHeld s'.intake t m ↔ m ∈ s.intake.ids) := by
  have hcall := (intakeInv_of_reachable h).call t
  have hst : c.state = .unacked := hcall.unacked (unsettled_of_exception ha) c hc
  rw [step_of_exception ha hs]
  refine ⟨Function.update_self _ _ _, ?_⟩
  have hcopy : (raiseFrom s.intake t).copies t = some { c with state := .rejected } := by
    simp only [raiseFrom, Intake.modifyCopy_copies, Intake.setHandler_copies,
      Intake.closeInsert_copies, Function.update_self, hc, Option.map_some, hst]
    rfl
  constructor
  · rintro (hm | ⟨c', hc', hheld⟩)
    · exact hm
    · -- The copy is rejected, and a rejected copy is not held.
      rw [hcopy] at hc'
      cases hc'
      cases hheld
  · intro hm
    exact Or.inl hm

/-! ## A message that is lost -/

/-- A body that names `m` and has a string event type and an object payload. -/
structure WellFormed (cfg : Settings) (body : Body) (m : MessageId) : Prop
    extends Names cfg body m where
  fields : ∃ data e p, body.loads = .value (.obj data) ∧
    Json.get data (py "event_type") = some (.str e) ∧
    Json.get data (py "payload") = some (.obj p)

def beforeInsert : List Action :=
  [.publish 0 (eventBody (py "m") (py "e") (.obj [])), .handler 0 (.start ⟨1⟩)]

theorem beforeInsert_enabled :
    (run (step .default) World.init beforeInsert).isSome = true := by decide

/-- Its message is well-formed. -/
theorem wellFormed_sample : WellFormed .default (eventBody (py "m") (py "e") (.obj [])) (py "m") :=
  ⟨⟨by decide, ⟨_, rfl, by decide⟩, by decide⟩, ⟨_, py "e", [], rfl, by decide, by decide⟩⟩

/-- The INSERT fails, and the message is neither recorded nor held. -/
theorem recordedOrHeld_after_exception_iff_beforeInsert :
    ∃ s' : World, s'.intake.handlers 0 = .idle ∧ (RecordedOrHeld s'.intake 0 (py "m") ↔
      py "m" ∈ ((run (step .default) World.init beforeInsert).get beforeInsert_enabled).intake.ids) :=
  ⟨_, recordedOrHeld_after_exception_iff .default _ _ 0 _ (py "m") .dbError
    (Reachable.of_run beforeInsert_enabled) rfl (.opening rfl) rfl⟩

/-- A database error loses a well-formed message: after it the message is neither recorded nor
held. SOURCE: app/consumer/rabbitmq.py:131 -/
theorem lost_on_database_error :
    ¬ ∀ (s s' : World) (t : Tag) (c : Copy) (m : MessageId) (a : HandlerAction),
      Reachable (step .default) World.init s → s.intake.copies t = some c →
      WellFormed .default c.body m → DatabaseException s.intake t a →
      step .default s (.handler t a) = some s' → RecordedOrHeld s'.intake t m := by
  intro h
  have hlost := h _ _ 0 _ (py "m") .dbError (Reachable.of_run beforeInsert_enabled) rfl
    wellFormed_sample (.opening rfl) rfl
  obtain hm | ⟨c, hc, hheld⟩ := hlost
  · exact absurd hm (by decide)
  · cases hc
    cases hheld

end EventPipeline.Analysis
