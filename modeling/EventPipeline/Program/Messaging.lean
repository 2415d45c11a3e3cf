import EventPipeline.Computation.DirectExchange
import EventPipeline.Program.Publish
import EventPipeline.Program.Reconciler

/-!
# The processes at the broker

The startup of the API processes and of the consumer processes, `publish_event`, and the
publishing of a reconciler. A step is one call to the broker. The declarations are durable, so
they stay when a process stops. The default exchange of AMQP is left out: no process publishes
to it.
-/

set_option autoImplicit false

namespace EventPipeline.Program

open EventPipeline.Model EventPipeline.Computation

/-- SOURCE: app/config.py:14-15 -/
structure BrokerSettings where
  rabbitmqExchange : PyStr
  rabbitmqQueue : PyStr

def BrokerSettings.default : BrokerSettings := ⟨py "events", py "events.process"⟩

/-- Numbers the API processes. -/
abbrev ApiId := ℕ

/-- Where an API process is. It serves requests once `connect` has returned.
SOURCE: app/broker.py:19-36, app/main.py:33-40 -/
inductive ApiPhase where
  | down
  | exchangeDeclared
  | serving
  deriving DecidableEq

/-- Where a consumer process is. SOURCE: app/consumer/rabbitmq.py:282-308 -/
inductive ConsumerPhase where
  | down
  | exchangeDeclared
  | queueDeclared
  | consuming
  deriving DecidableEq

structure Messaging where
  broker : Broker PyStr PyStr PyStr Body
  apis : ApiId → ApiPhase
  consumers : ConsumerId → ConsumerPhase

def Messaging.init : Messaging := ⟨.empty, fun _ => .down, fun _ => .down⟩

inductive ApiAction where
  | declareExchange
  | declareQueue
  /-- a call of `publish_event` that returns 202; `u` is the identifier it generates -/
  | publishEvent (body : EventPublishRequest) (u : Uuid)
  /-- the process disconnects, crashes, or fails in `connect` -/
  | stop

inductive ConsumerAction where
  | declareExchange
  | declareQueue
  | bind
  /-- the broker delivers the first message -/
  | receive
  /-- the reconciler publishes a stale event again -/
  | reEnqueue (ik : IdempotencyKey)
  | stop

inductive MessagingAction where
  | api (p : ApiId) (a : ApiAction)
  | consumer (c : ConsumerId) (a : ConsumerAction)

def Messaging.setApi (s : Messaging) (p : ApiId) (x : ApiPhase) : Messaging :=
  { s with apis := Function.update s.apis p x }

def Messaging.setConsumer (s : Messaging) (c : ConsumerId) (x : ConsumerPhase) : Messaging :=
  { s with consumers := Function.update s.consumers c x }

/-- `connect` of an API process, and `publish_event`.
SOURCE: app/broker.py:19-36, app/api/events.py:23-46 -/
def api (cfg : BrokerSettings) (s : Messaging) (p : ApiId) : ApiAction → Option Messaging
  | .declareExchange =>
    match s.apis p with
    | .down =>
      some ({ s with broker := s.broker.declareExchange cfg.rabbitmqExchange }.setApi p
        .exchangeDeclared)
    | _ => none
  | .declareQueue =>
    match s.apis p with
    | .exchangeDeclared =>
      some ({ s with broker := s.broker.declareQueue cfg.rabbitmqQueue }.setApi p .serving)
    | _ => none
  | .publishEvent body u =>
    match s.apis p with
    | .serving =>
      (s.broker.publish cfg.rabbitmqExchange cfg.rabbitmqQueue (publishEvent body u)).map
        fun b => { s with broker := b }
    | _ => none
  | .stop => some (s.setApi p .down)

/-- The setup of a consumer process, and what it does at the broker afterwards.
SOURCE: app/consumer/rabbitmq.py:234-249,282-308 -/
def consumer (cfg : BrokerSettings) (s : Messaging) (c : ConsumerId) :
    ConsumerAction → Option Messaging
  | .declareExchange =>
    match s.consumers c with
    | .down =>
      some ({ s with broker := s.broker.declareExchange cfg.rabbitmqExchange }.setConsumer c
        .exchangeDeclared)
    | _ => none
  | .declareQueue =>
    match s.consumers c with
    | .exchangeDeclared =>
      some ({ s with broker := s.broker.declareQueue cfg.rabbitmqQueue }.setConsumer c
        .queueDeclared)
    | _ => none
  | .bind =>
    match s.consumers c with
    | .queueDeclared =>
      (s.broker.bind cfg.rabbitmqExchange cfg.rabbitmqQueue cfg.rabbitmqQueue).map fun b =>
        { s with broker := b }.setConsumer c .consuming
    | _ => none
  | .receive =>
    match s.consumers c with
    | .consuming => some { s with broker := s.broker.take cfg.rabbitmqQueue }
    | _ => none
  | .reEnqueue ik =>
    match s.consumers c with
    | .consuming =>
      (s.broker.publish cfg.rabbitmqExchange cfg.rabbitmqQueue (reEnqueueBody ik)).map
        fun b => { s with broker := b }
    | _ => none
  | .stop => some (s.setConsumer c .down)

def messaging (cfg : BrokerSettings) (s : Messaging) : MessagingAction → Option Messaging
  | .api p a => api cfg s p a
  | .consumer c a => consumer cfg s c a

end EventPipeline.Program
