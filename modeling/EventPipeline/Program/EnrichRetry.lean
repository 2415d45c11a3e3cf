import EventPipeline.Computation.Retrying
import EventPipeline.Program.System

/-!
# The calls of the provider

`step` takes a whole `_enrich_with_retry` as one step of its call. Here the calls of the provider
that it makes, and the waits between them, are steps of their own. The loop of a call runs from its
early ACK to the step with which it ends, and other steps may come in between.
-/

set_option autoImplicit false

namespace EventPipeline.Program

open EventPipeline.Model EventPipeline.Computation

/-- `wait_exponential(multiplier=1, min=1, max=10)` after an attempt.
SOURCE: app/consumer/rabbitmq.py:99 -/
def waitExponential (attempt : ℕ) : Time := seconds (max 1 (min (2 ^ (attempt - 1)) 10))

/-- `retry_if_exception_type(TransientEnrichmentError)`. SOURCE: app/consumer/rabbitmq.py:97 -/
def isTransient : EnrichOutcome → Bool
  | .transient => true
  | .result _ | .fatal _ | .other => false

/-- SOURCE: app/consumer/rabbitmq.py:96-101 -/
def enrichWithRetry : RetryPolicy EnrichOutcome where
  again := isTransient
  limit := 3
  wait := waitExponential

/-- The pipeline with the loop of each call. -/
structure ProviderWorld where
  world : World
  loops : Tag → LoopState EnrichOutcome

def ProviderWorld.init : ProviderWorld := ⟨World.init, fun _ => .start⟩

def ProviderWorld.setLoop (s : ProviderWorld) (t : Tag) (loop : LoopState EnrichOutcome) :
    ProviderWorld :=
  { s with loops := Function.update s.loops t loop }

inductive ProviderAction where
  /-- a step of the pipeline that does not end a loop -/
  | other (a : Action)
  /-- `_get_provider` raises before the loop -/
  | noProvider (t : Tag)
  /-- the loop of call `t` calls `provider.enrich` -/
  | begins (t : Tag)
  /-- that call ends -/
  | ends (t : Tag) (o : EnrichOutcome)

/-- A call that takes another step is before its loop, begins it or has left it. -/
def leaveLoop (s : ProviderWorld) : Action → ProviderWorld
  | .handler t _ => s.setLoop t .start
  | _ => s

/-- SOURCE: app/consumer/rabbitmq.py:96-103,149-185 -/
def providerStep (cfg : Settings) (s : ProviderWorld) : ProviderAction → Option ProviderWorld
  | .other a =>
    match a with
    | .handler _ (.enrich _) => none
    | _ => (step cfg s.world a).map fun w => { leaveLoop s a with world := w }
  | .noProvider t =>
    match s.loops t with
    | .waiting 0 _ =>
      (step cfg s.world (.handler t (.enrich .other))).map fun w =>
        { s.setLoop t .start with world := w }
    | _ => none
  | .begins t =>
    match s.world.intake.handlers t with
    | .enriching _ => (enrichWithRetry.next (s.loops t) (.begins s.world.now)).map (s.setLoop t)
    | _ => none
  | .ends t o =>
    match s.world.intake.handlers t, enrichWithRetry.next (s.loops t) (.ends s.world.now o) with
    | .enriching _, some (.done o') =>
      (step cfg s.world (.handler t (.enrich o'))).map fun w =>
        { s.setLoop t .start with world := w }
    | .enriching _, some loop => some (s.setLoop t loop)
    | _, _ => none

/-! ## What an observer sees -/

/-- The arguments of a call of the provider, with its begin or its end. -/
def providerEvent (s : ProviderWorld) : ProviderAction → List (NewEvent × LoopEvent EnrichOutcome)
  | .begins t =>
    match s.world.intake.handlers t with
    | .enriching ev => [(ev, .begins s.world.now)]
    | _ => []
  | .ends t o =>
    match s.world.intake.handlers t with
    | .enriching ev => [(ev, .ends s.world.now o)]
    | _ => []
  | .other _ | .noProvider _ => []

def providerEvents (cfg : Settings) (as : List ProviderAction) :
    List (NewEvent × LoopEvent EnrichOutcome) :=
  history (providerStep cfg) providerEvent ProviderWorld.init as

/-- The step of the pipeline that the action is, if it is one. -/
def pipelineAction (s : ProviderWorld) : ProviderAction → List Action
  | .other a => [a]
  | .noProvider t => [.handler t (.enrich .other)]
  | .begins _ => []
  | .ends t o =>
    match enrichWithRetry.next (s.loops t) (.ends s.world.now o) with
    | some (.done o') => [.handler t (.enrich o')]
    | _ => []

def pipelineActions (cfg : Settings) (as : List ProviderAction) : List Action :=
  history (providerStep cfg) pipelineAction ProviderWorld.init as

end EventPipeline.Program
