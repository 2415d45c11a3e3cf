import EventPipeline.Computation.Transition
import EventPipeline.Interface.MessagingSteps

/-!
# Which accepted events reach the queue

`connect` declares the exchange and the queue, but the binding between them is made by the
consumer only. Until some consumer process has bound the queue, the broker discards what
`publish_event` has answered with 202. The copies of a reconciler always arrive: its process
has bound the queue itself.
-/

set_option autoImplicit false

namespace EventPipeline.Analysis

open EventPipeline.Model EventPipeline.Program EventPipeline.Interface EventPipeline.Computation

/-- The queue is bound after a run when it was bound before it or the run has a bind. -/
theorem queueBound_run {cfg : BrokerSettings} {s s' : Messaging} {as : List MessagingAction}
    (h : run (messaging cfg) s as = some s') :
    QueueBound cfg s' ↔ QueueBound cfg s ∨ ∃ a ∈ as, IsBind a := by
  induction as generalizing s with
  | nil =>
    cases h
    simp
  | cons a as ih =>
    obtain ⟨m, ha, has⟩ := run_cons_eq_some.1 h
    rw [ih has, (messagingStep_of_eq_some ha).queueBound, or_assoc]
    simp

/-- Every process that may publish has declared the exchange, and a consumer that consumes has
bound the queue. SOURCE: app/broker.py:26-35, app/consumer/rabbitmq.py:294-307 -/
structure SetUp (cfg : BrokerSettings) (s : Messaging) : Prop where
  api : ∀ p, s.apis p ≠ .down → cfg.rabbitmqExchange ∈ s.broker.exchanges
  consuming : ∀ c, s.consumers c = .consuming → QueueBound cfg s

/-- Every reachable state of the broker is set up as the processes set it up. -/
theorem setUp_of_reachable {cfg : BrokerSettings} {s : Messaging}
    (h : Reachable (messaging cfg) .init s) : SetUp cfg s := by
  refine h.induct (I := SetUp cfg) ⟨fun _ hp => absurd rfl hp, fun _ hc => by cases hc⟩ ?_
  intro s a s' _ hinv hs
  have hstep := messagingStep_of_eq_some hs
  have hex : cfg.rabbitmqExchange ∈ s.broker.exchanges →
      cfg.rabbitmqExchange ∈ s'.broker.exchanges := hstep.exchanges
  have hbound : QueueBound cfg s → QueueBound cfg s' := fun hb => hstep.queueBound.2 (Or.inl hb)
  have hbind : IsBind a → QueueBound cfg s' := fun hb => hstep.queueBound.2 (Or.inr hb)
  -- Only the process that takes the step changes its phase.
  have hapi : ∀ p, s'.apis p ≠ .down → s.apis p ≠ .down ∨
      cfg.rabbitmqExchange ∈ s'.broker.exchanges := by
    intro p hp
    cases hstep with
    | apiExchange _ => exact Or.inr List.mem_cons_self
    | @apiQueue q hq => exact Or.inr (hinv.api q (by rw [hq]; simp))
    | @apiStop q =>
      by_cases heq : p = q
      · simp [Messaging.setApi, heq] at hp
      · exact Or.inl (by simpa [Messaging.setApi, heq] using hp)
    | _ => exact Or.inl hp
  have hcons : ∀ c, s'.consumers c = .consuming → s.consumers c = .consuming ∨
      QueueBound cfg s' := by
    intro c hc
    cases hstep with
    | @bind c' _ _ _ => exact Or.inr (hbind ⟨c', rfl⟩)
    | consumerExchange _ => exact Or.inl (consuming_of_setConsumer (by simp) hc)
    | consumerQueue _ => exact Or.inl (consuming_of_setConsumer (by simp) hc)
    | consumerStop => exact Or.inl (consuming_of_setConsumer (by simp) hc)
    | _ => exact Or.inl hc
  refine ⟨fun p hp => ?_, fun c hc => ?_⟩
  · obtain hold | hnew := hapi p hp
    · exact hex (hinv.api p hold)
    · exact hnew
  · obtain hold | hnew := hcons c hc
    · exact hbound (hinv.consuming c hold)
    · exact hnew

/-- A call of `publish_event` in a process that serves always returns 202.
SOURCE: app/api/events.py:34-46 -/
theorem publishEvent_returns {cfg : BrokerSettings} {s : Messaging} {p : ApiId}
    (h : Reachable (messaging cfg) .init s) (hp : s.apis p = .serving)
    (body : EventPublishRequest) (u : Uuid) :
    (messaging cfg s (.api p (.publishEvent body u))).isSome = true := by
  have hex := (setUp_of_reachable h).api p (by rw [hp]; simp)
  simp [messaging, api, hp, Broker.publish, hex]

/-- A re-enqueued copy always reaches the queue. SOURCE: app/consumer/rabbitmq.py:234-249 -/
theorem reEnqueue_placed {cfg : BrokerSettings} {s s' : Messaging} {c : ConsumerId}
    {ik : IdempotencyKey} (h : Reachable (messaging cfg) .init s)
    (hs : messaging cfg s (.consumer c (.reEnqueue ik)) = some s') :
    Broker.Placed s.broker s'.broker cfg.rabbitmqQueue (reEnqueueBody ik) := by
  cases messagingStep_of_eq_some hs with
  | reEnqueue hc hb => exact (Broker.placed_iff_bound hb).2 ((setUp_of_reachable h).consuming c hc)

/-! ## The accepted events -/

/-- A `publish_event` call that returns 202 places its message in the queue.
SOURCE: app/api/events.py:35-46 -/
def PlacesAccepted (cfg : BrokerSettings) (s : Messaging) (a : MessagingAction) : Prop :=
  ∀ p body u s', a = .api p (.publishEvent body u) → messaging cfg s a = some s' →
    Broker.Placed s.broker s'.broker cfg.rabbitmqQueue (publishEvent body u)

def IsAccepted (a : MessagingAction) : Prop := ∃ p body u, a = .api p (.publishEvent body u)

/-- Before every call of `publish_event` some consumer has bound the queue. -/
def BoundBeforeAccepted (as : List MessagingAction) : Prop :=
  ∀ as₁ a as₂, as = as₁ ++ a :: as₂ → IsAccepted a → ∃ b ∈ as₁, IsBind b

/-- The queue is bound once a consumer has bound it, and only then.
SOURCE: app/consumer/rabbitmq.py:293-300 -/
theorem queueBound_of_run {cfg : BrokerSettings} {s : Messaging} {as : List MessagingAction}
    (h : run (messaging cfg) .init as = some s) : QueueBound cfg s ↔ ∃ a ∈ as, IsBind a := by
  have hinit : ¬ QueueBound cfg .init := List.not_mem_nil
  rw [queueBound_run h, or_iff_right hinit]

/-- A call of `publish_event` places its message exactly when some consumer has bound the queue
before it. SOURCE: app/api/events.py:35-43 -/
theorem accepted_placed_iff_bind {cfg : BrokerSettings} {s s' : Messaging}
    {as : List MessagingAction} {p : ApiId} {body : EventPublishRequest} {u : Uuid}
    (h : run (messaging cfg) .init as = some s)
    (hs : messaging cfg s (.api p (.publishEvent body u)) = some s') :
    Broker.Placed s.broker s'.broker cfg.rabbitmqQueue (publishEvent body u) ↔
      ∃ a ∈ as, IsBind a := by
  rw [← queueBound_of_run h]
  cases messagingStep_of_eq_some hs with
  | publishEvent _ hb => exact Broker.placed_iff_bound hb

/-- In a run from an empty broker, all accepted events reach the queue if and only if the first
of them comes after the bind of some consumer.
SOURCE: app/broker.py:26-32, app/api/events.py:35-46, app/consumer/rabbitmq.py:294-300 -/
theorem accepted_placed_iff (cfg : BrokerSettings) (as : List MessagingAction) (s : Messaging)
    (h : run (messaging cfg) .init as = some s) :
    Meets (messaging cfg) (PlacesAccepted cfg) .init as ↔ BoundBeforeAccepted as := by
  rw [meets_iff h]
  constructor
  · rintro hplaced as₁ a as₂ heq ⟨p, body, u, rfl⟩
    rw [heq] at h
    obtain ⟨m, hm, hrest⟩ := run_append_eq_some.1 h
    obtain ⟨m', hs, _⟩ := run_cons_eq_some.1 hrest
    have hput := hplaced as₁ _ as₂ m heq hm p body u m' rfl hs
    exact (accepted_placed_iff_bind hm hs).1 hput
  · rintro hbound as₁ a as₂ m heq hm p body u m' rfl hs
    have hbind := hbound as₁ _ as₂ heq ⟨p, body, u, rfl⟩
    exact (accepted_placed_iff_bind hm hs).2 hbind

/-! ## Concrete histories -/

/-- `connect` of API process 0. SOURCE: app/broker.py:19-36 -/
def connectApi : List MessagingAction := [.api 0 .declareExchange, .api 0 .declareQueue]

/-- The setup of consumer 0. SOURCE: app/consumer/rabbitmq.py:294-300 -/
def setUpConsumer : List MessagingAction :=
  [.declareExchange, .declareQueue, .bind].map (.consumer 0)

def pingRequest : EventPublishRequest where
  eventType := py "ping"
  payload := []
  messageId := some (py "m")
  event_type_length := by decide
  event_type_unicode := by decide
  payload_size := by decide
  message_id_length := by decide
  message_id_unicode := by decide
  payload_floats := by decide

/-- The message of the first accepted request comes after the actions `before`. -/
def publishAfter (before : List MessagingAction) : List MessagingAction :=
  before ++ [.api 0 (.publishEvent pingRequest ⟨1⟩)]

/-- A publish after a binding is accepted by a bound queue. -/
theorem boundBeforeAccepted_publishAfter {before : List MessagingAction}
    (hb : ∃ b ∈ before, IsBind b) (hnone : ∀ a ∈ before, ¬ IsAccepted a) :
    BoundBeforeAccepted (publishAfter before) := by
  intro as₁ a as₂ heq ha
  obtain ⟨rest, hpre, _⟩ | ⟨rest, hpre, hrest⟩ := List.append_eq_append_iff.1 heq
  · rw [hpre]
    exact hb.imp fun b hb => ⟨List.mem_append_left _ hb.1, hb.2⟩
  · -- The accepted call is the last action, as there is none in `before`.
    cases rest with
    | nil =>
      rw [List.append_nil] at hpre
      rwa [← hpre]
    | cons b rest =>
      obtain ⟨rfl, _⟩ := List.cons.inj hrest
      exact absurd ha (hnone a (by rw [hpre]; simp))

theorem publishAfter_setUp_enabled :
    (run (messaging .default) .init (publishAfter (connectApi ++ setUpConsumer))).isSome = true := by
  decide

/-- Its publish is placed. -/
theorem accepted_placed_iff_setUp : Meets (messaging .default) (PlacesAccepted .default) .init
    (publishAfter (connectApi ++ setUpConsumer)) :=
  (accepted_placed_iff .default _ _ (Option.some_get publishAfter_setUp_enabled).symm).2
    (boundBeforeAccepted_publishAfter ⟨.consumer 0 .bind, by simp [setUpConsumer], 0, rfl⟩
      (by simp [connectApi, setUpConsumer, IsAccepted]))

theorem publishAfter_connect_enabled :
    (run (messaging .default) .init (publishAfter connectApi)).isSome = true := by decide

/-- An API that serves before any consumer has run: the call returns 202 and the broker
discards the message. SOURCE: app/broker.py:31-32 -/
theorem accepted_not_placed :
    ¬ ∀ (as : List MessagingAction) (s : Messaging), run (messaging .default) .init as = some s →
      Meets (messaging .default) (PlacesAccepted .default) .init as := by
  intro h
  have hrun := (Option.some_get publishAfter_connect_enabled).symm
  obtain ⟨m, hm, hs⟩ := run_append_eq_some.1 hrun
  rw [run_singleton] at hs
  have hplaces := (meets_iff hrun).1 (h _ _ hrun) connectApi _ [] m rfl hm
  obtain ⟨a, ha, c, rfl⟩ := (accepted_placed_iff_bind hm hs).1 (hplaces 0 _ _ _ rfl hs)
  simp [connectApi] at ha

end EventPipeline.Analysis
