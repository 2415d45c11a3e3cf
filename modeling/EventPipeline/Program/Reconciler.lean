import EventPipeline.Computation.Table
import EventPipeline.Program.Consumer

/-!
# The reconciler

One `_reconciler` cycle as a step function: the SELECT of a batch of stale rows, then one
step per loaded row, then the commit. The rows change only at the commit; a publish takes
effect at once. `_supervised_reconciler` only restarts the loop, so a cycle that ends by an
exception is followed by a new one.
-/

set_option autoImplicit false

namespace EventPipeline.Program

open EventPipeline.Model EventPipeline.Computation

/-- The WHERE clause of the reconciler's SELECT, at the time `t₀` that the cutoff is computed
from. SOURCE: app/consumer/rabbitmq.py:206-217 -/
def isStale (cfg : Settings) (t₀ : Time) (k : IdempotencyKey) : Bool :=
  k.status = .received && k.receivedAt + cfg.reconcilerStale < t₀

/-- The text stored for an abandoned event. SOURCE: app/consumer/rabbitmq.py:230-233 -/
def abandonError (reconcileCount : ℕ) : PyStr :=
  py "Abandoned after " ++ decimal reconcileCount ++
    py " reconciler cycles (enrichment permanently unavailable)"

/-- The body of a re-enqueued copy. SOURCE: app/consumer/rabbitmq.py:236-242 -/
def reEnqueueBody (ik : IdempotencyKey) : Body := eventBody ik.messageId ik.eventType ik.rawPayload

/-- How `asyncio.wait_for(exchange.publish(...))` ends. -/
inductive PublishOutcome where
  /-- the exchange accepts the copy, which enters the queue under the tag -/
  | accepted (t : Tag)
  /-- `asyncio.TimeoutError` before the exchange accepts -/
  | timeout
  /-- any other exception; with a tag when the exchange had accepted the copy -/
  | error (t : Option Tag)

/-- The UPDATE of one changed row at the flush. -/
def KeyWrite.flush : KeyWrite → List IdempotencyKey → List IdempotencyKey
  | .abandoned m e, keys => updateKey m (fun k => { k with status := .failed, error := some e }) keys
  | .counted m n, keys => updateKey m (fun k => { k with reconcileCount := n }) keys

def flushWrites (dirty : List KeyWrite) (keys : List IdempotencyKey) : List IdempotencyKey :=
  dirty.foldl (fun keys w => KeyWrite.flush w keys) keys

/-- The exchange accepts a copy of `ik` under a new tag. -/
def enqueueCopy (s : Intake) (ik : IdempotencyKey) (t : Tag) : Intake :=
  { s with
    copies := Function.update s.copies t (some ⟨reEnqueueBody ik, .ready⟩)
    reEnqueued := s.reEnqueued ++ [ik.messageId] }

def setCycle (s : Intake) (p : ConsumerId) (c : Cycle) : Intake :=
  { s with reconcilers := Function.update s.reconcilers p c }

/-- The reconciler is in the cycle that was set for it. -/
@[simp] theorem setCycle_self (s : Intake) (p : ConsumerId) (c : Cycle) :
    (setCycle s p c).reconcilers p = c := Function.update_self _ _ _

inductive ReconcilerAction where
  /-- the SELECT with the cutoff of time `t₀`; the unordered LIMIT returns `picks` -/
  | select (t₀ : Time) (picks : List MessageId)
  /-- the next loaded row is at its cap -/
  | abandon
  /-- the next loaded row is published -/
  | publish (o : PublishOutcome)
  | commit
  /-- an exception ends the cycle and rolls it back -/
  | fail
  | crash

/-- The step function of the reconciler of consumer `p`.
SOURCE: app/consumer/rabbitmq.py:200-265 -/
def reconciler (cfg : Settings) (now : Time) (s : Intake) (p : ConsumerId) :
    ReconcilerAction → Option Intake
  | .select t₀ picks =>
    match s.reconcilers p with
    | .idle =>
      if t₀ ≤ now ∧ picks.Nodup ∧
          picks.length = min cfg.reconcilerBatchSize (s.keys.countP (isStale cfg t₀)) ∧
          ∀ m ∈ picks, ((lookup IdempotencyKey.messageId m s.keys).map (isStale cfg t₀)) = some true
      then
        some (setCycle s p
          (.running (picks.filterMap fun m => lookup IdempotencyKey.messageId m s.keys) []))
      else none
    | .running _ _ => none
  | .abandon =>
    match s.reconcilers p with
    | .running (ik :: todo) dirty =>
      if cfg.reconcilerMaxAttempts ≤ ik.reconcileCount then
        some (setCycle s p
          (.running todo (dirty ++ [.abandoned ik.messageId (abandonError ik.reconcileCount)])))
      else none
    | _ => none
  | .publish o =>
    match s.reconcilers p with
    | .running (ik :: todo) dirty =>
      if ik.reconcileCount < cfg.reconcilerMaxAttempts then
        match o with
        | .accepted t =>
          if (s.copies t).isNone then
            some (setCycle (enqueueCopy s ik t) p
              (.running todo (dirty ++ [.counted ik.messageId (ik.reconcileCount + 1)])))
          else none
        | .timeout => some (setCycle s p (.running todo dirty))
        | .error none => some (setCycle s p .idle)
        | .error (some t) =>
          if (s.copies t).isNone then some (setCycle (enqueueCopy s ik t) p .idle) else none
      else none
    | _ => none
  | .commit =>
    match s.reconcilers p with
    | .running [] dirty =>
      some (setCycle { s with keys := flushWrites dirty s.keys } p .idle)
    | _ => none
  | .fail | .crash =>
    match s.reconcilers p with
    | .running _ _ => some (setCycle s p .idle)
    | .idle => none

end EventPipeline.Program
