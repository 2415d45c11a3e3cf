import EventPipeline.Computation.History
import EventPipeline.Program.System

/-!
# The counters

Which counter each step increments. The histograms and the gauges are left out: they measure
real time and the connection pool. An increment is recorded with the message or the delivery
that the step is about, which the registry of the source does not keep.
-/

set_option autoImplicit false

namespace EventPipeline.Program

open EventPipeline.Model EventPipeline.Computation

/-- The counters with their labels. SOURCE: app/metrics.py:16-53 -/
inductive Counter where
  /-- `consumer_messages_received_total` -/
  | messagesReceived
  /-- `consumer_messages_duplicate_total` -/
  | messagesDuplicate
  /-- `consumer_enrichment_errors_total` -/
  | enrichmentErrors (errorType : PyStr)
  /-- `delivery_attempts_total` -/
  | deliveriesAttempted
  /-- `delivery_successes_total` -/
  | deliveriesSucceeded
  /-- `delivery_failures_total` -/
  | deliveriesFailed (httpStatus : PyStr)
  /-- `delivery_dead_total` -/
  | deliveriesDead
  deriving DecidableEq

/-! ## The consumer -/

/-- `error_type` of the two documented exceptions. -/
def transientError : Counter := .enrichmentErrors (py "transient")

def fatalError : Counter := .enrichmentErrors (py "fatal")

/-- What a step of call `t` increments, with its message. The entry without a counter is a commit
that takes effect although the call sees an exception.
SOURCE: app/consumer/rabbitmq.py:134-143,163-168 -/
def callSamples (s : Intake) (t : Tag) : HandlerAction → List (MessageId × Option Counter)
  | .insert =>
    match s.handlers t with
    | .parsed ev =>
      match insertValues ev with
      | some new =>
        if s.ids.contains new.messageId then [(new.messageId, some .messagesDuplicate)] else []
      | none => []
    | _ => []
  | .commit _ =>
    match s.handlers t with
    | .selected ev _ _ _ => [(ev.messageId, some .messagesReceived)]
    | _ => []
  | .commitLost _ =>
    match s.handlers t with
    | .selected ev _ _ _ => [(ev.messageId, none)]
    | _ => []
  | .enrich .transient =>
    match s.handlers t with
    | .enriching ev => [(ev.messageId, some transientError)]
    | _ => []
  | .enrich (.fatal _) =>
    match s.handlers t with
    | .enriching ev => [(ev.messageId, some fatalError)]
    | _ => []
  | _ => []

def messageSample (s : World) : Action → List (MessageId × Option Counter)
  | .handler t a => callSamples s.intake t a
  | _ => []

/-- All that the calls of a run have counted. -/
def messageSamples (cfg : Settings) (as : List Action) : List (MessageId × Option Counter) :=
  history (step cfg) messageSample World.init as

/-! ## The delivery worker -/

/-- `str(result.status_code) if result.status_code else "timeout"`.
SOURCE: app/delivery/worker.py:146 -/
def statusLabel : Option ℕ → PyStr
  | none | some 0 => py "timeout"
  | some (n + 1) => decimal (n + 1)

/-- The counter of a result. SOURCE: app/delivery/worker.py:129-147 -/
def resultCounter (cfg : Settings) (attempt : DeliveryAttempt) (r : DeliveryResult) : Counter :=
  if r.success then .deliveriesSucceeded
  else if cfg.deliveryMaxAttempts ≤ attempt.attemptCount + 1 then .deliveriesDead
  else .deliveriesFailed (statusLabel r.statusCode)

/-- What a step of worker `w` increments, with its delivery. The result is counted before
`_backoff_seconds` is called. The entry without a counter is a `deliver` that raises.
SOURCE: app/delivery/worker.py:121-148 -/
def workerSamples (cfg : Settings) (d : Delivery) (w : WorkerId) :
    WorkerAction → List (Uuid × Option Counter)
  | .post =>
    match (d.workers w).phase with
    | .fetched a _ _ => [(a.attempt.id, some .deliveriesAttempted)]
    | _ => []
  | .postEnds o =>
    match (d.workers w).phase with
    | .posting a _ _ => [(a.attempt.id, (deliver o).map (resultCounter cfg a.attempt))]
    | _ => []
  | _ => []

def deliverySample (cfg : Settings) (s : World) : Action → List (Uuid × Option Counter)
  | .worker w a => workerSamples cfg s.delivery w a
  | _ => []

/-- All that the workers of a run have counted. -/
def deliverySamples (cfg : Settings) (as : List Action) : List (Uuid × Option Counter) :=
  history (step cfg) (deliverySample cfg) World.init as

/-! ## The registry of a process

Each process has counters of its own, which start at zero with the process. -/

/-- What happens to the registry of a worker process. -/
inductive RegistryEvent where
  | restarted
  | counted (e : Uuid × Option Counter)

def RegistryEvent.entry : RegistryEvent → Option (Uuid × Option Counter)
  | .restarted => none
  | .counted e => some e

def workerEvents (cfg : Settings) (d : Delivery) (w : WorkerId) :
    WorkerAction → List RegistryEvent
  | .crash => [.restarted]
  | a => (workerSamples cfg d w a).map .counted

def registryEvents (cfg : Settings) (w : WorkerId) (s : World) : Action → List RegistryEvent
  | .worker w' a => if w' = w then workerEvents cfg s.delivery w a else []
  | _ => []

/-- What the process of worker `w` has counted since it was started, the latest first. -/
def metricsOf (cfg : Settings) (w : WorkerId) (as : List Action) : List (Uuid × Option Counter) :=
  (since (fun e => e.entry.isNone)
    (history (step cfg) (registryEvents cfg w) World.init as)).filterMap RegistryEvent.entry

end EventPipeline.Program
