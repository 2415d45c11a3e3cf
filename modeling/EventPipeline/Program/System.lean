import EventPipeline.Computation.Transition
import EventPipeline.Program.Reconciler
import EventPipeline.Program.Worker
import EventPipeline.Program.Api

/-!
# The whole pipeline

Any number of consumers, workers and API calls over one database, one queue and one clock.
A step of the system is a step of one of its parts; the parts meet in the tables and in the
queue. The initial state is an empty database and an empty queue.
-/

set_option autoImplicit false

namespace EventPipeline.Program

open EventPipeline.Model EventPipeline.Computation

structure World where
  now : Time
  registry : Registry
  intake : Intake
  delivery : Delivery

def World.init : World := ⟨0, .init, .init, .init⟩

inductive Action where
  | tick (d : Time)
  /-- some publisher puts a copy with any body into the queue -/
  | publish (t : Tag) (body : Body)
  | handler (t : Tag) (a : HandlerAction)
  | reconciler (p : ConsumerId) (a : ReconcilerAction)
  | worker (w : WorkerId) (a : WorkerAction)
  | retry (r : RequestId) (a : RetryAction)
  | subscriber (r : RequestId) (a : SubscriberAction)

def step (cfg : Settings) (s : World) : Action → Option World
  | .tick d => some { s with now := s.now + d }
  | .publish t body =>
    if (s.intake.copies t).isNone then
      some { s with
        intake :=
          { s.intake with copies := Function.update s.intake.copies t (some ⟨body, .ready⟩) } }
    else none
  | .handler t a =>
    (handleMessage cfg s.now s.registry.subscribers s.intake s.delivery.attempts t a).map fun r =>
      { s with intake := r.1, delivery := { s.delivery with attempts := r.2 } }
  | .reconciler p a =>
    (reconciler cfg s.now s.intake p a).map fun i => { s with intake := i }
  | .worker w a =>
    (worker cfg s.now s.registry.subscribers s.intake.keys s.delivery w a).map fun d =>
      { s with delivery := d }
  | .retry r a => (retryDelivery s.now s.delivery r a).map fun d => { s with delivery := d }
  | .subscriber r a => (subscriber s.now s.registry r a).map fun g => { s with registry := g }

/-! ## Parts of a history

The actions that parts of the source take when nothing interferes. The concrete histories of
the analysis are put together from them. -/

/-- A call on copy `t` up to its early ACK; `ids` are the identifiers of the new attempts.
SOURCE: app/consumer/rabbitmq.py:106-147 -/
def acceptance (t : Tag) (u : Uuid) (ids : List Uuid) : List Action :=
  [.start u, .insert, .selectSubscribers, .commit ids, .ack].map (.handler t)

/-- One subscriber and one event, which gets one attempt. -/
def oneAttempt : List Action :=
  [.subscriber 0 (.create ⟨1⟩ (py "http://a") (py "s")),
    .publish 0 (eventBody (py "m") (py "e") (.obj []))] ++ acceptance 0 ⟨2⟩ [⟨3⟩]

/-- The provider returns `enriched`, and the call stores it.
SOURCE: app/consumer/rabbitmq.py:149-195 -/
def storeResult (t : Tag) (enriched : List (PyStr × Json)) : List Action :=
  [.enrich (.result enriched), .load, .write].map (.handler t)

/-- One reconciler cycle that republishes `m` alone, as copy `t`.
SOURCE: app/consumer/rabbitmq.py:205-261 -/
def republishCycle (p : ConsumerId) (t₀ : Time) (m : MessageId) (t : Tag) : List Action :=
  [.select t₀ [m], .publish (.accepted t), .commit].map (.reconciler p)

/-- A worker claims the rows `picks`. SOURCE: app/delivery/worker.py:58-89 -/
def claimBatch (w : WorkerId) (t₀ : Time) (picks : List Uuid) : List Action :=
  [.claim t₀ picks, .claimCommit].map (.worker w)

/-- A worker delivers the next row of its batch. SOURCE: app/delivery/worker.py:101-174 -/
def deliverNext (w : WorkerId) (o : PostOutcome) (k : Draw) : List Action :=
  [.fetch, .post, .postEnds o, .writeBack k].map (.worker w)

end EventPipeline.Program
