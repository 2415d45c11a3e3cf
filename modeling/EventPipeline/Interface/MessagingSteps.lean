import EventPipeline.Program.Messaging

/-!
# What a step at the broker can do

`MessagingStep` lists the enabled steps of `messaging`, and `QueueBound` follows the one
binding that the processes use.
-/

set_option autoImplicit false

namespace EventPipeline.Interface

open EventPipeline.Model EventPipeline.Program EventPipeline.Computation

inductive MessagingStep (cfg : BrokerSettings) (s : Messaging) : MessagingAction → Messaging → Prop
  | apiExchange {p : ApiId} (hp : s.apis p = .down) :
      MessagingStep cfg s (.api p .declareExchange)
        (({ s with broker := s.broker.declareExchange cfg.rabbitmqExchange } : Messaging).setApi p
          .exchangeDeclared)
  | apiQueue {p : ApiId} (hp : s.apis p = .exchangeDeclared) :
      MessagingStep cfg s (.api p .declareQueue)
        (({ s with broker := s.broker.declareQueue cfg.rabbitmqQueue } : Messaging).setApi p
          .serving)
  | publishEvent {p : ApiId} {body : EventPublishRequest} {u : Uuid}
      {b : Broker PyStr PyStr PyStr Body} (hp : s.apis p = .serving)
      (hb : s.broker.publish cfg.rabbitmqExchange cfg.rabbitmqQueue (publishEvent body u) = some b) :
      MessagingStep cfg s (.api p (.publishEvent body u)) { s with broker := b }
  | apiStop {p : ApiId} : MessagingStep cfg s (.api p .stop) (s.setApi p .down)
  | consumerExchange {c : ConsumerId} (hc : s.consumers c = .down) :
      MessagingStep cfg s (.consumer c .declareExchange)
        (({ s with broker := s.broker.declareExchange cfg.rabbitmqExchange } :
          Messaging).setConsumer c .exchangeDeclared)
  | consumerQueue {c : ConsumerId} (hc : s.consumers c = .exchangeDeclared) :
      MessagingStep cfg s (.consumer c .declareQueue)
        (({ s with broker := s.broker.declareQueue cfg.rabbitmqQueue } : Messaging).setConsumer c
          .queueDeclared)
  | bind {c : ConsumerId} {b : Broker PyStr PyStr PyStr Body} (hc : s.consumers c = .queueDeclared)
      (hb : s.broker.bind cfg.rabbitmqExchange cfg.rabbitmqQueue cfg.rabbitmqQueue = some b) :
      MessagingStep cfg s (.consumer c .bind)
        (({ s with broker := b } : Messaging).setConsumer c .consuming)
  | receive {c : ConsumerId} (hc : s.consumers c = .consuming) :
      MessagingStep cfg s (.consumer c .receive)
        { s with broker := s.broker.take cfg.rabbitmqQueue }
  | reEnqueue {c : ConsumerId} {ik : IdempotencyKey} {b : Broker PyStr PyStr PyStr Body}
      (hc : s.consumers c = .consuming)
      (hb : s.broker.publish cfg.rabbitmqExchange cfg.rabbitmqQueue (reEnqueueBody ik) = some b) :
      MessagingStep cfg s (.consumer c (.reEnqueue ik)) { s with broker := b }
  | consumerStop {c : ConsumerId} :
      MessagingStep cfg s (.consumer c .stop) (s.setConsumer c .down)

/-- The list of messaging steps is complete. -/
theorem messagingStep_of_eq_some {cfg : BrokerSettings} {s s' : Messaging} {a : MessagingAction}
    (h : messaging cfg s a = some s') : MessagingStep cfg s a s' := by
  cases a with
  | api p a =>
    cases a with
    | declareExchange =>
      simp only [messaging, api] at h
      split at h <;> cases h
      exact .apiExchange ‹_›
    | declareQueue =>
      simp only [messaging, api] at h
      split at h <;> cases h
      exact .apiQueue ‹_›
    | publishEvent body u =>
      simp only [messaging, api] at h
      split at h
      · obtain ⟨b, hb, rfl⟩ := Option.map_eq_some_iff.1 h
        exact .publishEvent ‹_› hb
      · cases h
    | stop =>
      cases h
      exact .apiStop
  | consumer c a =>
    cases a with
    | declareExchange =>
      simp only [messaging, consumer] at h
      split at h <;> cases h
      exact .consumerExchange ‹_›
    | declareQueue =>
      simp only [messaging, consumer] at h
      split at h <;> cases h
      exact .consumerQueue ‹_›
    | bind =>
      simp only [messaging, consumer] at h
      split at h
      · obtain ⟨b, hb, rfl⟩ := Option.map_eq_some_iff.1 h
        exact .bind ‹_› hb
      · cases h
    | receive =>
      simp only [messaging, consumer] at h
      split at h <;> cases h
      exact .receive ‹_›
    | reEnqueue ik =>
      simp only [messaging, consumer] at h
      split at h
      · obtain ⟨b, hb, rfl⟩ := Option.map_eq_some_iff.1 h
        exact .reEnqueue ‹_› hb
      · cases h
    | stop =>
      cases h
      exact .consumerStop

/-- The queue gets the messages that are sent with its name as the routing key. -/
def QueueBound (cfg : BrokerSettings) (s : Messaging) : Prop :=
  (cfg.rabbitmqExchange, cfg.rabbitmqQueue, cfg.rabbitmqQueue) ∈ s.broker.bindings

def IsBind (a : MessagingAction) : Prop := ∃ c, a = .consumer c .bind

/-- Only the setup of a consumer binds the queue, and nothing unbinds it.
SOURCE: app/broker.py:26-32, app/consumer/rabbitmq.py:294-300 -/
theorem MessagingStep.queueBound {cfg : BrokerSettings} {s s' : Messaging} {a : MessagingAction}
    (h : MessagingStep cfg s a s') : QueueBound cfg s' ↔ QueueBound cfg s ∨ IsBind a := by
  have hsame : ¬ IsBind a → s'.broker.bindings = s.broker.bindings →
      (QueueBound cfg s' ↔ QueueBound cfg s ∨ IsBind a) := by
    intro hnot heq
    simp only [QueueBound, heq, hnot, or_false]
  cases h with
  | bind hc hb =>
    obtain ⟨heq, _⟩ := Broker.bind_eq_some hb
    simp [QueueBound, IsBind, Messaging.setConsumer, heq]
  | publishEvent _ hb => exact hsame (by simp [IsBind]) (Broker.publish_eq_some hb).2.1
  | reEnqueue _ hb => exact hsame (by simp [IsBind]) (Broker.publish_eq_some hb).2.1
  | _ => exact hsame (by simp [IsBind]) rfl

/-- No step removes an exchange. -/
theorem MessagingStep.exchanges {cfg : BrokerSettings} {s s' : Messaging} {a : MessagingAction}
    (h : MessagingStep cfg s a s') {e : PyStr} (he : e ∈ s.broker.exchanges) :
    e ∈ s'.broker.exchanges := by
  cases h with
  | apiExchange _ => exact List.mem_cons_of_mem _ he
  | consumerExchange _ => exact List.mem_cons_of_mem _ he
  | bind _ hb => exact (Broker.bind_eq_some hb).2 ▸ he
  | publishEvent _ hb => exact (Broker.publish_eq_some hb).2.2 ▸ he
  | reEnqueue _ hb => exact (Broker.publish_eq_some hb).2.2 ▸ he
  | _ => exact he

/-- A consumer that consumes did so before another phase was set for one of them. -/
theorem consuming_of_setConsumer {s : Messaging} {c c' : ConsumerId} {x : ConsumerPhase}
    (hx : x ≠ .consuming) (h : (s.setConsumer c' x).consumers c = .consuming) :
    s.consumers c = .consuming := by
  have h' : Function.update s.consumers c' x c = .consuming := h
  by_cases hc : c = c'
  · subst hc
    rw [Function.update_self] at h'
    exact absurd h' hx
  · rwa [Function.update_of_ne hc] at h'

end EventPipeline.Interface
